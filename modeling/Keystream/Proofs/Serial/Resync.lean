import Keystream.Proofs.Serial.Link
import Mathlib.Data.Nat.Find
/-!
Resynchronisation. The first mark on a line decides what a reader makes of the line: the sixteen
bytes from there on are the next frame, and what stands before them is passed over.
-/
namespace Keystream

namespace Port

/-- Whether the first mark in some bytes begins at `p`. -/
structure FirstMark (s : Bytes) (p : Nat) : Prop where
  here : [0xff, 0x55, 0xaa] <+: s.drop p
  first : ∀ i < p, ¬[0xff, 0x55, 0xaa] <+: s.drop i

variable {s : Bytes} {p : Nat}

theorem exists_drop_of_not_unmarked (spelled : ¬Unmarked s) :
    ∃ i, i + 3 ≤ s.length ∧ [0xff, 0x55, 0xaa] <+: s.drop i := by
  obtain ⟨front, back, rfl⟩ := not_not.1 spelled
  refine ⟨front.length, ?_, ?_⟩
  · simp
  · rw [List.append_assoc, List.drop_left]
    exact List.prefix_append ..

theorem FirstMark.unmarked_take (first : FirstMark s p) : Unmarked (s.take p) := by
  by_contra spelled
  obtain ⟨i, within, mark⟩ := exists_drop_of_not_unmarked spelled
  rw [List.length_take] at within
  rw [List.drop_take] at mark
  exact first.first i (by omega) (mark.trans (List.take_prefix ..))

theorem exists_firstMark (spelled : ¬Unmarked s) : ∃ p, FirstMark s p := by
  classical
  obtain ⟨i, _, mark⟩ := exists_drop_of_not_unmarked spelled
  have some : ∃ i, [0xff, 0x55, 0xaa] <+: s.drop i := ⟨i, mark⟩
  exact ⟨Nat.find some, Nat.find_spec some, fun _ => Nat.find_min some⟩

theorem FirstMark.split (first : FirstMark s p) :
    s = s.take p ++ 0xff :: 0x55 :: 0xaa :: s.drop (p + 3) := by
  obtain ⟨rest, spelled⟩ := first.here
  have behind : rest = s.drop (p + 3) := by
    rw [← List.drop_drop, ← spelled]
    rfl
  calc s = s.take p ++ s.drop p := (List.take_append_drop ..).symm
    _ = s.take p ++ 0xff :: 0x55 :: 0xaa :: s.drop (p + 3) := by rw [← spelled, behind]; rfl

theorem FirstMark.exists_frame (first : FirstMark s p) (whole : p + 16 ≤ s.length) :
    ∃ b body, (s.drop p).take 16 = [0xff, 0x55, 0xaa, b] ++ body ∧ body.length = 12 ∧
      s = s.take p ++ 0xff :: 0x55 :: 0xaa :: b :: (body ++ s.drop (p + 16)) := by
  obtain ⟨frame, shown⟩ : ∃ frame, frame = (s.drop p).take 16 := ⟨_, rfl⟩
  have size : frame.length = 16 := by
    rw [shown, List.length_take, List.length_drop]
    omega
  have behind : s.drop p = frame ++ s.drop (p + 16) := by
    rw [shown, ← List.drop_drop, List.take_append_drop]
  have mark := first.here
  rw [behind] at mark
  match frame, size with
  | a :: b :: c :: d :: body, size =>
    simp only [List.cons_append, List.cons_prefix_cons, List.nil_prefix, and_true] at mark
    obtain ⟨rfl, rfl, rfl⟩ := mark
    simp only [List.length_cons] at size
    refine ⟨d, body, shown.symm, by omega, ?_⟩
    calc s = s.take p ++ s.drop p := (List.take_append_drop ..).symm
      _ = _ := congrArg (s.take p ++ ·) behind

end Port

namespace Frame

theorem exists_words {s : Bytes} (whole : s.length = 16) :
    ∃ magic first second sum, s = Word.pack [magic, first, second, sum] := by
  have count := Word.length_unpack s
  rw [whole] at count
  match spelled : Word.unpack s, count with
  | [magic, first, second, sum], _ =>
    exact ⟨magic, first, second, sum, by rw [← spelled, Word.pack_unpack (by omega)]⟩

theorem length_withChecksum {body : Bytes} (size : body.length = 12) :
    (withChecksum body).length = 16 := by
  rw [withChecksum, List.length_append, size]
  rfl

theorem bytes_statedChecksum {s : Bytes} (whole : s.length = 16) :
    Word.bytes (statedChecksum s) = s.drop 12 := by
  obtain ⟨magic, first, second, sum, rfl⟩ := exists_words whole
  rw [statedChecksum, Word.unpack_pack]
  rfl

theorem exists_magic {s : Bytes} (whole : s.length = 16) :
    ∃ magic, Word.bytes magic = s.take 4 ∧ magicOf s = Word.toInt magic := by
  obtain ⟨magic, first, second, sum, rfl⟩ := exists_words whole
  refine ⟨magic, rfl, ?_⟩
  rw [magicOf, Word.unpack_pack]
  rfl

def magics : List Int := [signalMagic, haltMagic, readMagic, writeMagic]

theorem exists_bytes_of_mem_magics {magic : Int} (member : magic ∈ magics) :
    Word.toInt (Word.ofInt magic) = magic ∧
      ∃ b, Word.bytes (Word.ofInt magic) = [0xff, 0x55, 0xaa, b] := by
  simp only [magics, List.mem_cons, List.not_mem_nil, or_false] at member
  obtain rfl | rfl | rfl | rfl := member
  · exact ⟨toInt_signalMagic, _, bytes_signalMagic⟩
  · exact ⟨toInt_haltMagic, _, bytes_haltMagic⟩
  · exact ⟨toInt_readMagic, _, bytes_readMagic⟩
  · exact ⟨toInt_writeMagic, _, bytes_writeMagic⟩

end Frame

namespace Layout

def frames : List Layout := [signalRequest, memoryRequest, reply]

variable {layout : Layout} {given : List (String × Value)} {s : Bytes}

theorem exists_middle (member : layout ∈ frames) :
    ∃ middle, layout = .record ((("magic", word) :: middle) ++ [("checksum", word)]) ∧
      fieldsSize middle = 8 ∧ "checksum" ∉ middle.map Prod.fst := by
  simp only [frames, List.mem_cons, List.not_mem_nil, or_false] at member
  obtain rfl | rfl | rfl := member
  · exact ⟨[("sig", word), ("value", word)], rfl, rfl, by decide⟩
  · exact ⟨[("addr", word), ("size", word)], rfl, rfl, by decide⟩
  · exact ⟨[("status", .one .signed), ("response", word)], rfl, rfl, by decide⟩

theorem lookup_put_in {name : String} (other : name ≠ "checksum") (value : Value) :
    (given ++ [("checksum", value)]).lookup name = given.lookup name := by
  rw [List.lookup_append, List.lookup_cons, beq_false_of_ne other, List.lookup_nil, Option.or_none]

theorem writeFields_checksum (absent : given.lookup "checksum" = none) (sum : Word) :
    writeFields (given ++ [("checksum", .int (Word.toInt sum))]) [("checksum", word)] =
      .ok (Word.bytes sum) := by
  have found : (given ++ [("checksum", Value.int (Word.toInt sum))]).lookup "checksum" =
      some (Value.int (Word.toInt sum)) := by
    rw [List.lookup_append, absent, Option.none_or, List.lookup_cons_self]
  have spelled : word.write (.int (Word.toInt sum)) = .ok (Word.bytes sum) :=
    Number.write_eq_ok.2 ⟨Word.fits_toInt .little sum, by rw [Word.ofInt_toInt]; rfl⟩
  exact writeFields_cons_eq_ok.2 ⟨_, _, [], found, spelled, rfl, List.append_nil _⟩

theorem exists_body (member : layout ∈ frames) (absent : given.lookup "checksum" = none)
    (wrote : layout.write (.record (given ++ [("checksum", .int 0)])) = .ok s) :
    ∃ body, s = body ++ Word.bytes 0 ∧ body.length = 12 ∧
      (∀ magic, given.lookup "magic" = some (.int magic) →
        body.take 4 = Word.bytes (Word.ofInt magic)) ∧
      ∀ sum, layout.write (.record (given ++ [("checksum", .int (Word.toInt sum))])) =
        .ok (body ++ Word.bytes sum) := by
  obtain ⟨middle, rfl, size, other⟩ := exists_middle member
  obtain ⟨body, last, front, back, rfl⟩ := writeFields_append_eq_ok.1 wrote
  cases back.symm.trans (writeFields_checksum absent 0)
  refine ⟨body, rfl, ?_, fun magic named => ?_, fun sum => ?_⟩
  · rw [length_of_writeFields front, fieldsSize, size]
    rfl
  · obtain ⟨value, first, others, found, head, _, rfl⟩ := writeFields_cons_eq_ok.1 front
    rw [lookup_put_in (by decide), named] at found
    cases found
    obtain ⟨_, rfl⟩ := Number.write_eq_ok.1 head
    rfl
  · refine writeFields_append_eq_ok.2
      ⟨body, _, front.symm.trans ?_ |>.symm, writeFields_checksum absent sum, rfl⟩
    refine writeFields_congr fun name member => ?_
    have differs : name ≠ "checksum" := by
      rintro rfl
      exact other ((List.mem_cons.1 member).resolve_left (by decide))
    rw [lookup_put_in differs, lookup_put_in differs]

end Layout

namespace Link

open Keystream.Action Port

section

variable {machine : Machine} {layout : Layout} {fields : List (String × Value)} {l r : Link}

theorem lookup_checksum (unreserved : ¬(fields.any fun field => reservedNames.contains field.1)) :
    fields.lookup "checksum" = none := by
  rw [List.lookup_eq_none_iff]
  intro field member
  rw [bne_iff_ne]
  intro same
  refine unreserved (List.any_eq_true.2 ⟨field, member, ?_⟩)
  rw [← same]
  rfl

/-- What fields that are sent put on the line: a frame which spells them. -/
theorem exists_frame_of_sendFields (member : layout ∈ Layout.frames)
    (sends : (sendFields layout fields).effect l = (.ok (), r)) :
    ∃ body shown, r.port.sent = l.port.sent ++ Frame.withChecksum body ∧ body.length = 12 ∧
      (∀ magic, fields.lookup "magic" = some (.int magic) →
        body.take 4 = Word.bytes (Word.ofInt magic)) ∧
      layout.read (Frame.withChecksum body) = .ok (.record shown) ∧
      ∀ name value, name ∈ layout.names → fields.lookup name = some value →
        shown.lookup name = some value := by
  rw [sendFields] at sends
  split at sends
  · cases sends
  · next unreserved =>
    rw [effect_bind, effect_liftM] at sends
    rcases wrote : layout.write (.record (fields ++ [("checksum", .int 0)])) with e | s
    · rw [wrote] at sends
      cases sends
    rw [wrote] at sends
    have absent := lookup_checksum unreserved
    obtain ⟨body, rfl, size, magic, spelled⟩ := Layout.exists_body member absent wrote
    have whole : (body ++ Word.bytes 0).length - 4 = body.length := by
      rw [List.length_append, Word.length_bytes, Nat.add_sub_cancel]
    obtain ⟨q, went, view⟩ := exists_effect_transmit (l := l) rfl body
    simp only [whole, List.take_left, went] at sends
    cases sends
    have read := Layout.read_of_write (spelled (checksum body))
    obtain ⟨middle, rfl, _⟩ := Layout.exists_middle member
    refine ⟨body, _, (View.mk.inj view).2.1, size, magic, read, fun name value known found => ?_⟩
    refine Layout.lookup_named known ?_
    rw [List.lookup_append, found]
    rfl

theorem sendFields_eq_send {first second : String} {a b : Number} (little : a.order = .little)
    (little' : b.order = .little)
    (distinct : ("magic" :: first :: second :: reservedNames).Nodup) (magic x y : Int) :
    sendFields (.record [("magic", Layout.word), (first, .one a), (second, .one b),
        ("checksum", Layout.word)])
      [("magic", .int magic), (first, .int x), (second, .int y)] =
      liftM (do return Frame.mk (← Frame.unsigned.word magic) (← a.word x) (← b.word y)) >>=
        send := by
  simp only [reservedNames, List.nodup_cons, List.mem_cons, List.not_mem_nil, not_or, or_false]
    at distinct
  obtain ⟨⟨first_ne_magic, second_ne_magic, _⟩, ⟨second_ne_first, free⟩, free', _⟩ := distinct
  have unreserved : ¬([("magic", Value.int magic), (first, .int x), (second, .int y)].any
      fun field => reservedNames.contains field.1) = true := by
    simp [reservedNames, free, free']
  have differ {s t : String} (other : s ≠ t) : (t == s) = false := beq_false_of_ne other.symm
  have magic_ne_checksum : "magic" ≠ "checksum" := by decide
  have wrote : (Layout.record [("magic", Layout.word), (first, .one a), (second, .one b),
      ("checksum", Layout.word)]).write (.record ([("magic", .int magic), (first, .int x),
        (second, .int y)] ++ [("checksum", .int 0)])) =
      (do
        let m ← Frame.unsigned.word magic
        let u ← a.word x
        let v ← b.word y
        return Word.bytes m ++ (Word.bytes u ++ (Word.bytes v ++ Word.bytes 0))) := by
    simp only [Layout.write, Value.fields, Layout.writeFields, List.cons_append, List.nil_append,
      List.lookup_cons, beq_self_eq_true, differ first_ne_magic, differ second_ne_magic,
      differ second_ne_first, differ free.1, differ free'.1, differ magic_ne_checksum, Shape.write,
      Layout.word, Number.writeValue, Number.write, pure_bind, bind_assoc, little, little',
      Frame.unsigned]
    rfl
  unfold sendFields
  rw [if_neg unreserved, wrote]
  funext l
  rcases Frame.unsigned.word magic with e | m
  · rfl
  rcases a.word x with e | u
  · rfl
  rcases b.word y with e | v
  · rfl
  rfl

/-! What either end sends are the fields of a frame's layout. -/

theorem send_signalRequest (magic sig value : Int) :
    liftM (Frame.request magic sig value) >>= send =
      sendFields .signalRequest
        [("magic", .int magic), ("sig", .int sig), ("value", .int value)] :=
  (sendFields_eq_send rfl rfl (by decide) magic sig value).symm

theorem send_memoryRequest (magic addr size : Int) :
    liftM (Frame.request magic addr size) >>= send =
      sendFields .memoryRequest
        [("magic", .int magic), ("addr", .int addr), ("size", .int size)] :=
  (sendFields_eq_send rfl rfl (by decide) magic addr size).symm

theorem reply_eq_sendFields (magic status response : Int) :
    reply magic status response =
      sendFields .reply [("magic", .int magic), ("status", .int status),
        ("response", .int (Word.toInt (Word.ofInt response)))] := by
  refine Eq.trans ?_ (sendFields_eq_send (a := .signed) (b := .unsigned .little) rfl rfl
    (by decide) magic status (Word.toInt (Word.ofInt response))).symm
  rw [reply, Frame.reply, Word.unsigned_word]
  rfl

theorem exists_effect_receive_first {p : Nat} (hands : l.port.limit ≠ some 0)
    (first : FirstMark l.port.unread p) (whole : p + 16 ≤ l.port.unread.length) :
    let frame := (l.port.unread.drop p).take 16
    ∃ q magic stated, Word.bytes magic = frame.take 4 ∧ Word.bytes stated = frame.drop 12 ∧
      Frame.magicOf frame = Word.toInt magic ∧
      receive.effect l =
        (if stated = checksum (frame.take 12) then .ok frame
          else .error (.frameChecksum (Word.toInt stated)
            (Word.toInt (checksum (frame.take 12)))), q) ∧
      q.port.unread = l.port.unread.drop (p + 16) := by
  obtain ⟨b, body, shown, size, stands⟩ := first.exists_frame whole
  obtain ⟨q, received, view⟩ :=
    exists_effect_receive_of_mark size (view_of_unread stands) hands first.unmarked_take
  have size : ([0xff, 0x55, 0xaa, b] ++ body).length = 16 := by
    rw [List.length_append, size]
    rfl
  obtain ⟨magic, begins, told⟩ := Frame.exists_magic size
  rw [shown]
  exact ⟨q, magic, _, begins, Frame.bytes_statedChecksum size, told, received, (View.mk.inj view).1⟩

theorem exists_effect_receive_none (hands : l.port.limit ≠ some 0)
    (none : ¬∃ p, FirstMark l.port.unread p ∧ p + 16 ≤ l.port.unread.length) :
    ∃ q wanted got, receive.effect l = (.error (.timeout wanted got), q) ∧ q.port.unread = [] := by
  by_cases unmarked : Unmarked l.port.unread
  · obtain ⟨q, lost, view⟩ := exists_effect_receive_of_unmarked rfl hands unmarked
    exact ⟨q, _, _, lost, (View.mk.inj view).1⟩
  obtain ⟨p, first⟩ := exists_firstMark unmarked
  have short : l.port.unread.length < p + 16 := by
    by_contra long
    exact none ⟨p, first, by omega⟩
  have here := view_of_unread first.split
  rcases behind : l.port.unread.drop (p + 3) with _ | ⟨b, body⟩
  · rw [behind] at here
    obtain ⟨missing, view⟩ := hunt_of_mark_last .nothing here hands first.unmarked_take
    obtain ⟨q, lost, view⟩ := exists_effect_receive_of_missing missing view
    exact ⟨q, _, _, lost, (View.mk.inj view).1⟩
  · have size := congrArg List.length behind
    rw [List.length_drop, List.length_cons] at size
    rw [behind] at here
    obtain ⟨q, lost, view⟩ := exists_effect_receive_of_broken (by omega) here hands
      first.unmarked_take
    exact ⟨q, _, _, lost, (View.mk.inj view).1⟩

theorem exists_effect_receive_of_begins {b : UInt8} {s noise tail : Bytes} (size : s.length = 16)
    (begins : s.take 4 = [0xff, 0x55, 0xaa, b]) (hands : l.port.limit ≠ some 0)
    (unmarked : Unmarked noise) (stands : l.port.unread = noise ++ (s ++ tail)) :
    let stated := Frame.statedChecksum s
    let computed := checksum (s.take 12)
    ∃ q, receive.effect l =
        (if stated = computed then .ok s
          else .error (.frameChecksum (Word.toInt stated) (Word.toInt computed)), q) ∧
      q.port.unread = tail := by
  have front : s = [0xff, 0x55, 0xaa, b] ++ s.drop 4 := by rw [← begins, List.take_append_drop]
  have rest : (s.drop 4).length = 12 := by rw [List.length_drop, size]
  have stands : l.port.unread = noise ++ ([0xff, 0x55, 0xaa, b] ++ (s.drop 4 ++ tail)) := by
    rw [← List.append_assoc [0xff, 0x55, 0xaa, b], ← front, stands]
  obtain ⟨q, received, view⟩ :=
    exists_effect_receive_of_mark rest (view_of_unread stands) hands unmarked
  rw [← front] at received
  exact ⟨q, received, (View.mk.inj view).1⟩

theorem exists_effect_receive_withChecksum {b : UInt8} {body noise tail : Bytes}
    (size : body.length = 12) (mark : body.take 4 = [0xff, 0x55, 0xaa, b])
    (hands : l.port.limit ≠ some 0) (unmarked : Unmarked noise)
    (stands : l.port.unread = noise ++ (Frame.withChecksum body ++ tail)) :
    ∃ q, receive.effect l = (.ok (Frame.withChecksum body), q) ∧ q.port.unread = tail := by
  have whole := Frame.length_withChecksum size
  have begins : (Frame.withChecksum body).take 4 = [0xff, 0x55, 0xaa, b] := by
    rw [Frame.withChecksum, List.take_append_of_le_length (by omega), mark]
  obtain ⟨q, received, left⟩ :=
    exists_effect_receive_of_begins whole begins hands unmarked stands
  have taken : (Frame.withChecksum body).take 12 = body := List.take_left' size
  have stated : Frame.statedChecksum (Frame.withChecksum body) = checksum body :=
    Word.bytes_inj ((Frame.bytes_statedChecksum whole).trans (List.drop_left' size))
  rw [taken, if_pos stated] at received
  exact ⟨q, received, left⟩

/-- A reader finds exactly the frame that the first mark on a line begins, if all of it is there,
and reads no further; elsewhere it reads all there is and waits in vain. So a frame that was sent is
found behind any noise without a mark, with the fields that were sent. -/
theorem receive_resynchronises (hands : l.port.limit ≠ some 0) :
    (∀ p, FirstMark l.port.unread p → p + 16 ≤ l.port.unread.length →
      let frame := (l.port.unread.drop p).take 16
      ∃ q magic stated, Word.bytes magic = frame.take 4 ∧ Word.bytes stated = frame.drop 12 ∧
        Frame.magicOf frame = Word.toInt magic ∧
        receive.effect l =
          (if stated = checksum (frame.take 12) then .ok frame
            else .error (.frameChecksum (Word.toInt stated)
              (Word.toInt (checksum (frame.take 12)))), q) ∧
        q.port.unread = l.port.unread.drop (p + 16)) ∧
    ((¬∃ p, FirstMark l.port.unread p ∧ p + 16 ≤ l.port.unread.length) →
      ∃ q wanted got, receive.effect l = (.error (.timeout wanted got), q) ∧
        q.port.unread = []) ∧
    ∀ layout ∈ Layout.frames, ∀ fields : List (String × Value), ∀ magic ∈ Frame.magics,
      fields.lookup "magic" = some (.int magic) →
      ∀ w w' : Link, (sendFields layout fields).effect w = (.ok (), w') →
      ∃ frame shown, w'.port.sent = w.port.sent ++ frame ∧ Frame.magicOf frame = magic ∧
        layout.read frame = .ok (.record shown) ∧
        (∀ name value, name ∈ layout.names → fields.lookup name = some value →
          shown.lookup name = some value) ∧
        ∀ noise tail, Unmarked noise → l.port.unread = noise ++ (frame ++ tail) →
          ∃ q, receive.effect l = (.ok frame, q) ∧ q.port.unread = tail := by
  refine ⟨fun p first whole => exists_effect_receive_first hands first whole,
    exists_effect_receive_none hands, fun layout member fields magic known named w w' sends => ?_⟩
  obtain ⟨body, shown, sent, size, begins, read, kept⟩ := exists_frame_of_sendFields member sends
  obtain ⟨same, b, mark⟩ := Frame.exists_bytes_of_mem_magics known
  have whole : (Frame.withChecksum body).length = 16 := by
    rw [Frame.withChecksum, List.length_append, size]
    rfl
  obtain ⟨magic', front, told⟩ := Frame.exists_magic whole
  have begins := begins magic named
  rw [Frame.withChecksum, List.take_append_of_le_length (by omega), begins] at front
  cases Word.bytes_inj front
  exact ⟨_, shown, sent, told.trans same, read, kept, fun noise tail unmarked stands =>
    exists_effect_receive_withChecksum size (begins.trans mark) hands unmarked stands⟩

end

/-- A frame behind the beginnings of two marks that come to nothing, which is read in pieces of one,
two and three bytes. -/
theorem receive_resynchronises_behind_false_starts :
    let fields : List (String × Value) :=
      [("magic", .int Frame.signalMagic), ("sig", .int 2), ("value", .int 0)]
    let noise : Bytes := [0x68, 0xff, 0xff, 0x55]
    let frame := Frame.withChecksum [0xff, 0x55, 0xaa, 0x10, 2, 0, 0, 0, 0, 0, 0, 0]
    let port : Port :=
      { unread := noise ++ (frame ++ [9]), limit := some 3, pieces := [1, 1, 2], timeout := none }
    let l : Link := { port, traced := false }
    l.port.limit ≠ some 0 ∧ Unmarked noise ∧ FirstMark l.port.unread 4 ∧
      ((sendFields .signalRequest fields).effect l).1 = .ok () ∧
      ∃ q, receive.effect l = (.ok frame, q) ∧ q.port.unread = [9] := by
  intro fields noise frame port l
  have hands : l.port.limit ≠ some 0 := by decide
  have unmarked : Unmarked noise := by decide
  have first : FirstMark l.port.unread 4 := ⟨by decide +kernel, by decide +kernel⟩
  have sends : (sendFields .signalRequest fields).effect l =
      (.ok (), ((sendFields .signalRequest fields).effect l).2) := rfl
  obtain ⟨_, _, finds⟩ := receive_resynchronises hands
  obtain ⟨sent, shown, went, _, _, _, found⟩ :=
    finds .signalRequest List.mem_cons_self fields Frame.signalMagic List.mem_cons_self rfl l _
      sends
  obtain rfl : frame = sent := went
  exact ⟨hands, unmarked, first, rfl, found noise [9] unmarked rfl⟩

end Link

end Keystream
