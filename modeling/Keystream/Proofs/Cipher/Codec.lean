import Keystream.Cipher.State
import Keystream.Proofs.Layout
import Mathlib.Algebra.Group.Nat.Defs
/-!
The bytes of a state. Sixteen words are laid out one behind the other, each from its least byte on,
so that 64 bytes and a state spell each other; the record that names the parts of a state lays out
the same bytes, and a state made of a key and a nonce holds these as they were given.
-/
namespace Keystream

def littleEndian (count n : Nat) : Bytes := (List.range count).map fun i => .ofNat (n / 256 ^ i)

namespace Word

theorem bytes_eq (w : Word) : bytes w = littleEndian 4 w.toNat := by
  simp [bytes, littleEndian, List.range_succ]

theorem bytes_ofInt (v : Int) : bytes (ofInt v) = littleEndian 4 (v % 0x100000000).toNat := by
  rw [bytes_eq]
  congr 1
  have residue := toInt_ofInt v
  simp only [toInt] at residue
  omega

theorem pack_append (ws vs : List Word) : pack (ws ++ vs) = pack ws ++ pack vs :=
  List.flatMap_append

end Word

namespace Shape

theorem write_word (w : Word) : Layout.word.write (.int (Word.toInt w)) = .ok (Word.bytes w) := by
  show (Number.unsigned .little).write (Word.toInt w) = _
  refine Number.write_eq_ok.2 ⟨Word.fits_toInt .little w, ?_⟩
  rw [Word.ofInt_toInt]
  rfl

theorem write_words (ws : List Word) :
    (row ws.length (.unsigned .little)).write (.list (ws.map fun w => .int (Word.toInt w))) =
      .ok (Word.pack ws) := by
  refine write_row_eq_ok.2 ⟨_, ws.map Word.bytes, rfl, List.length_map .., ?_, rfl⟩
  induction ws with
  | nil => rfl
  | cons w ws ih =>
    rw [List.map_cons, List.mapM_cons]
    exact (bind_of_ok (write_word w) _).trans (bind_of_ok ih _)

end Shape

namespace State

def fields (s : State) : List (String × Value) :=
  let row (ws : List Word) : Value := .list (ws.map fun w => .int (Word.toInt w))
  [("constants", row s.constants), ("key", row s.keyWords),
    ("counter", .int (Word.toInt s.counter)), ("nonce", row s.nonceWords)]

theorem words_eq_parts (s : State) :
    s.words.toList = s.constants ++ (s.keyWords ++ ([s.counter] ++ s.nonceWords)) := by
  have counter : s.words.toList.drop 12 = s.counter :: s.nonceWords := by
    rw [List.drop_eq_getElem_cons (by simp), Vector.getElem_toList]
    rfl
  have whole : (s.words.toList.drop 4).drop 8 = s.words.toList.drop 12 := List.drop_drop
  rw [List.singleton_append, ← counter, ← whole, keyWords, List.take_append_drop, constants,
    List.take_append_drop]

theorem write_fields (s : State) : Layout.state.write (.record s.fields) = .ok s.build := by
  have constants : s.constants.length = 4 := by simp [State.constants]
  have key : s.keyWords.length = 8 := by simp [keyWords]
  have nonce : s.nonceWords.length = 3 := by simp [nonceWords]
  refine bind_eq_ok.2 ⟨s.fields, rfl, ?_⟩
  refine Layout.writeFields_cons_eq_ok.2 ⟨_, _, _, rfl, constants ▸ Shape.write_words _,
    Layout.writeFields_cons_eq_ok.2 ⟨_, _, _, rfl, key ▸ Shape.write_words _,
    Layout.writeFields_cons_eq_ok.2 ⟨_, _, _, rfl, Shape.write_word _,
    Layout.writeFields_cons_eq_ok.2 ⟨_, _, _, rfl, nonce ▸ Shape.write_words _, rfl, rfl⟩, rfl⟩,
    rfl⟩, ?_⟩
  rw [build, words_eq_parts, Word.pack_append, Word.pack_append, Word.pack_append, List.append_nil]
  rfl

theorem build_eq (s : State) :
    s.build = s.words.toList.flatMap fun w => littleEndian 4 w.toNat :=
  congrArg (s.words.toList.flatMap ·) (funext Word.bytes_eq)

theorem exists_parse {d : Bytes} (enough : 64 ≤ d.length) :
    ∃ s, parse d = .ok s ∧ s.build = d.take 64 := by
  refine ⟨_, dif_pos enough, ?_⟩
  rw [build, Vector.toList_mk, List.toList_toArray]
  exact Word.pack_unpack (by rw [List.length_take]; omega)

theorem parse_of_short {d : Bytes} (short : d.length < 64) : parse d = .error .shortInput :=
  dif_neg (Nat.not_le.2 short)

theorem read_fields {s : State} {d : Bytes} (spelled : s.build = d.take 64) :
    Layout.state.read d = .ok (.record s.fields) := by
  have read := Layout.read_append_of_write s.write_fields (d.drop 64)
  rwa [spelled, List.take_append_drop] at read

theorem checkedKey_of_length {key : Bytes} (sized : key.length = 32) :
    ∃ k, checkedKey key = .ok k ∧ k.toList = key :=
  ⟨_, dif_pos sized, List.toList_toArray⟩

theorem checkedNonce_of_length {nonce : Bytes} (sized : nonce.length = 12) :
    ∃ n, checkedNonce nonce = .ok n ∧ n.toList = nonce :=
  ⟨_, dif_pos sized, List.toList_toArray⟩

theorem pack_sigma : Word.pack sigma = "expand 32-byte k".toList.map fun c => .ofNat c.toNat := by
  decide

theorem build_make (key : Vector UInt8 32) (nonce : Vector UInt8 12) (counter : Int) :
    (make key nonce counter).build =
      Word.pack sigma ++ key.toList ++ littleEndian 4 (counter % 0x100000000).toNat ++
        nonce.toList := by
  have words : (make key nonce counter).words.toList =
      sigma ++ Word.unpack key.toList ++ [Word.ofInt counter] ++ Word.unpack nonce.toList := by
    simp only [make, Vector.toList_mk]
  have alone : Word.pack [Word.ofInt counter] = Word.bytes (Word.ofInt counter) := by
    simp [Word.pack]
  rw [build, words, Word.pack_append, Word.pack_append, Word.pack_append, alone, Word.bytes_ofInt,
    Word.pack_unpack (by simp), Word.pack_unpack (by simp)]

theorem exists_ofKeyNonce {key nonce : Bytes} (sized : key.length = 32)
    (sized' : nonce.length = 12) (counter : Int) :
    ∃ s, ofKeyNonce key nonce counter = .ok s ∧
      s.build =
        Word.pack sigma ++ key ++ littleEndian 4 (counter % 0x100000000).toNat ++ nonce := by
  obtain ⟨k, checked, rfl⟩ := checkedKey_of_length sized
  obtain ⟨n, checked', rfl⟩ := checkedNonce_of_length sized'
  exact ⟨_, (bind_of_ok checked _).trans (bind_of_ok checked' _), build_make k n counter⟩

theorem ofKeyNonce_of_unsized {key nonce : Bytes} (unsized : ¬(key.length = 32 ∧ nonce.length = 12))
    (counter : Int) :
    ofKeyNonce key nonce counter =
      .error (if key.length = 32 then .nonceLength nonce.length else .keyLength key.length) := by
  by_cases sized : key.length = 32
  · obtain ⟨k, checked, _⟩ := checkedKey_of_length sized
    have refused : checkedNonce nonce = .error (.nonceLength nonce.length) :=
      dif_neg fun sized' => unsized ⟨sized, sized'⟩
    rw [if_pos sized]
    exact (bind_of_ok checked _).trans (bind_of_error refused _)
  · have refused : checkedKey key = .error (.keyLength key.length) := dif_neg sized
    rw [if_neg sized]
    exact bind_of_error refused _

/-- A state and 64 bytes spell each other, word by word from the least byte on, and the record of a
state's parts lays out the same bytes. Of a key, a nonce and a counter a state is made that spells
the constants, the key, the counter's last four bytes and the nonce. -/
theorem state_spells_its_parts :
    (∀ s : State, s.build.length = 64 ∧ parse s.build = .ok s ∧
      s.build = (s.words.toList.flatMap fun w => littleEndian 4 w.toNat) ∧
      Layout.state.write (.record s.fields) = .ok s.build) ∧
    (∀ d : Bytes, 64 ≤ d.length → ∃ s, parse d = .ok s ∧ s.build = d.take 64 ∧
      Layout.state.read d = .ok (.record s.fields)) ∧
    (∀ d : Bytes, d.length < 64 → parse d = .error .shortInput ∧
      Layout.state.read d = .error .shortInput) ∧
    (∀ (key nonce : Bytes) (counter : Int), key.length = 32 → nonce.length = 12 →
      ∃ s, ofKeyNonce key nonce counter = .ok s ∧
        s.build = ("expand 32-byte k".toList.map fun c => .ofNat c.toNat) ++ key ++
          littleEndian 4 (counter % 0x100000000).toNat ++ nonce) ∧
    ∀ (key nonce : Bytes) (counter : Int), ¬(key.length = 32 ∧ nonce.length = 12) →
      ∃ e, ofKeyNonce key nonce counter = .error e ∧ e.kind = .value := by
  refine ⟨fun s => ⟨length_build s, parse_build s, build_eq s, write_fields s⟩, fun d enough => ?_,
    fun d short => ⟨parse_of_short short, Layout.state.read_of_short short⟩,
    fun key nonce counter sized sized' => ?_, fun key nonce counter unsized => ?_⟩
  · obtain ⟨s, parsed, spelled⟩ := exists_parse enough
    exact ⟨s, parsed, spelled, read_fields spelled⟩
  · rw [← pack_sigma]
    exact exists_ofKeyNonce sized sized' counter
  · refine ⟨_, ofKeyNonce_of_unsized unsized counter, ?_⟩
    split <;> rfl

/-- A state spelled by more bytes than it takes, one that breaks off, and one with a counter below
zero. -/
theorem state_spells_its_parts_below_zero :
    let key : Bytes := List.range 32 |>.map .ofNat
    let nonce : Bytes := [0, 0, 0, 9, 0, 0, 0, 0x4a, 0, 0, 0, 0]
    let long : Bytes := List.range 70 |>.map .ofNat
    64 ≤ long.length ∧ (∃ s, parse long = .ok s ∧ s.build = long.take 64) ∧
      (long.take 63).length < 64 ∧ parse (long.take 63) = .error .shortInput ∧
      key.length = 32 ∧ nonce.length = 12 ∧
      (∃ s, ofKeyNonce key nonce (-2) = .ok s ∧
        s.build = ("expand 32-byte k".toList.map fun c => .ofNat c.toNat) ++ key ++
          [0xfe, 0xff, 0xff, 0xff] ++ nonce) ∧
      ¬(nonce.length = 32 ∧ key.length = 12) ∧
      ∃ e, ofKeyNonce nonce key (-2) = .error e ∧ e.kind = .value := by
  intro key nonce long
  have enough : 64 ≤ long.length := by decide
  have short : (long.take 63).length < 64 := by decide
  have unsized : ¬(nonce.length = 32 ∧ key.length = 12) := by decide
  obtain ⟨_, parses, breaks, makes, refuses⟩ := state_spells_its_parts
  obtain ⟨s, parsed, spelled, _⟩ := parses long enough
  exact ⟨enough, ⟨s, parsed, spelled⟩, short, (breaks _ short).1, rfl, rfl,
    makes key nonce (-2) rfl rfl, unsized, refuses nonce key (-2) unsized⟩

end State

end Keystream
