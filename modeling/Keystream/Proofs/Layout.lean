import Keystream.Layout
import Keystream.Proofs.Effect
/-!
Layouts read back what they write: a number as it was, a row with all its numbers, and of a record
the fields that the layout names. Bytes behind the value make no difference.
-/
namespace Keystream

namespace Word

theorem toInt_ofInt_of_lt {v : Int} (low : 0 ≤ v) (high : v < 0x100000000) :
    toInt (ofInt v) = v := by
  rw [toInt_ofInt]
  omega

theorem signed_ofInt_of_lt {v : Int} (low : -0x80000000 ≤ v) (high : v < 0x80000000) :
    signed (ofInt v) = v := by
  calc signed (ofInt v) = Int.bmod (v % 0x100000000) 0x100000000 :=
        congrArg (Int.bmod · 0x100000000) (toInt_ofInt v)
    _ = Int.bmod v 0x100000000 := @Int.emod_bmod v 0x100000000
    _ = v := Int.bmod_eq_of_le (by omega) (by omega)

theorem fits_toInt (order : ByteOrder) (w : Word) :
    (Number.unsigned order).fits (toInt w) = true := by
  have small := w.toNat_lt
  show (decide (0 ≤ (w.toNat : Int)) && decide ((w.toNat : Int) < 0x100000000)) = true
  rw [Bool.and_eq_true, decide_eq_true_eq, decide_eq_true_eq]
  omega

theorem exists_bytes (w : Word) :
    ∃ a b c d, bytes w = [a, b, c, d] ∧ ofBytes a b c d = w :=
  ⟨_, _, _, _, rfl, (List.cons.inj (ofBytes_bytes w)).1⟩

end Word

theorem ByteOrder.exists_bytes (order : ByteOrder) (w : Word) :
    ∃ a b c d, order.bytes w = [a, b, c, d] ∧ order.ofBytes a b c d = w := by
  obtain ⟨a, b, c, d, spelled, read⟩ := Word.exists_bytes w
  cases order with
  | little => exact ⟨a, b, c, d, spelled, read⟩
  | big => exact ⟨d, c, b, a, congrArg List.reverse spelled, read⟩

namespace Number

variable {number : Number} {n : Int} {s rest : Bytes} {value : Value}

def ofWord : Number → Word → Int
  | unsigned _, w => Word.toInt w
  | signed, w => Word.signed w

theorem ofWord_ofInt (fits : number.fits n = true) : number.ofWord (Word.ofInt n) = n := by
  cases number with
  | unsigned order =>
    obtain ⟨low, high⟩ := Bool.and_eq_true_iff.1 fits
    exact Word.toInt_ofInt_of_lt (of_decide_eq_true low) (of_decide_eq_true high)
  | signed =>
    obtain ⟨low, high⟩ := Bool.and_eq_true_iff.1 fits
    exact Word.signed_ofInt_of_lt (of_decide_eq_true low) (of_decide_eq_true high)

theorem read_bytes (number : Number) (w : Word) (rest : Bytes) :
    number.read (number.order.bytes w ++ rest) = .ok (number.ofWord w, rest) := by
  obtain ⟨a, b, c, d, spelled, read⟩ := number.order.exists_bytes w
  rw [spelled]
  cases number <;> exact congrArg (fun v => Except.ok (_, rest)) read

theorem write_eq_ok : number.write n = .ok s ↔
    number.fits n = true ∧ number.order.bytes (Word.ofInt n) = s := by
  unfold write word
  split
  · next fits =>
    refine ⟨fun wrote => ⟨fits, Except.ok.inj wrote⟩, fun wrote => congrArg _ wrote.2⟩
  · next large => exact iff_of_false (fun wrote => nomatch wrote) fun wrote => large wrote.1

theorem writeValue_eq_ok : number.writeValue value = .ok s ↔
    ∃ n, value = .int n ∧ number.write n = .ok s := by
  cases value with
  | int n =>
    exact ⟨fun wrote => ⟨n, rfl, wrote⟩, fun ⟨_, same, wrote⟩ => Value.int.inj same ▸ wrote⟩
  | list | record | text | nothing | other =>
    exact iff_of_false (fun wrote => nomatch wrote) fun ⟨_, same, _⟩ => nomatch same

theorem read_append_of_write (wrote : number.write n = .ok s) (rest : Bytes) :
    number.read (s ++ rest) = .ok (n, rest) := by
  obtain ⟨fits, rfl⟩ := write_eq_ok.1 wrote
  rw [read_bytes, ofWord_ofInt fits]

theorem length_of_write (wrote : number.write n = .ok s) : s.length = 4 := by
  obtain ⟨_, rfl⟩ := write_eq_ok.1 wrote
  exact ByteOrder.length_bytes ..

theorem exists_of_mapM_cons {element : Value} {elements : List Value} {parts : List Bytes}
    (wrote : (element :: elements).mapM number.writeValue = .ok parts) :
    ∃ n part others, element = .int n ∧ number.write n = .ok part ∧
      elements.mapM number.writeValue = .ok others ∧ parts = part :: others := by
  rw [List.mapM_cons] at wrote
  obtain ⟨part, first, rest⟩ := bind_eq_ok.1 wrote
  obtain ⟨others, rest, same⟩ := bind_eq_ok.1 rest
  obtain ⟨n, isInt, first⟩ := writeValue_eq_ok.1 first
  exact ⟨n, part, others, isInt, first, rest, (Except.ok.inj same).symm⟩

theorem readMany_append_of_write {elements : List Value} {parts : List Bytes}
    (wrote : elements.mapM number.writeValue = .ok parts) (rest : Bytes) :
    ∃ ns, elements = ns.map .int ∧
      number.readMany elements.length (parts.flatten ++ rest) = .ok (ns, rest) := by
  induction elements generalizing parts with
  | nil =>
    cases wrote
    exact ⟨[], rfl, rfl⟩
  | cons element elements ih =>
    obtain ⟨n, part, others, rfl, first, tail, rfl⟩ := exists_of_mapM_cons wrote
    obtain ⟨ns, rfl, read⟩ := ih tail
    refine ⟨n :: ns, rfl, ?_⟩
    rw [List.flatten_cons, List.append_assoc, List.length_cons, readMany]
    refine (bind_of_ok (read_append_of_write first _) _).trans ?_
    exact bind_of_ok read _

theorem length_of_mapM_write {elements : List Value} {parts : List Bytes}
    (wrote : elements.mapM number.writeValue = .ok parts) :
    parts.flatten.length = 4 * elements.length := by
  induction elements generalizing parts with
  | nil =>
    cases wrote
    rfl
  | cons element elements ih =>
    obtain ⟨n, part, others, rfl, first, tail, rfl⟩ := exists_of_mapM_cons wrote
    rw [List.flatten_cons, List.length_append, length_of_write first, ih tail, List.length_cons]
    omega

theorem exists_read (number : Number) (enough : 4 ≤ s.length) :
    ∃ n, number.read s = .ok (n, s.drop 4) := by
  match s, enough with
  | a :: b :: c :: d :: rest, _ => cases number <;> exact ⟨_, rfl⟩

theorem read_of_short (number : Number) (short : s.length < 4) :
    number.read s = .error .shortInput := by
  match s, short with
  | [], _ | [_], _ | [_, _], _ | [_, _, _], _ => rfl

theorem exists_readMany (number : Number) {count : Nat} (enough : 4 * count ≤ s.length) :
    ∃ ns, number.readMany count s = .ok (ns, s.drop (4 * count)) := by
  induction count generalizing s with
  | zero => exact ⟨[], rfl⟩
  | succ count ih =>
    obtain ⟨n, first⟩ := number.exists_read (s := s) (by omega)
    obtain ⟨ns, others⟩ := ih (s := s.drop 4) (by rw [List.length_drop]; omega)
    rw [List.drop_drop, show 4 + 4 * count = 4 * (count + 1) by omega] at others
    exact ⟨n :: ns, (bind_of_ok first _).trans (bind_of_ok others _)⟩

theorem readMany_of_short (number : Number) {count : Nat} (short : s.length < 4 * count) :
    number.readMany count s = .error .shortInput := by
  induction count generalizing s with
  | zero => omega
  | succ count ih =>
    by_cases enough : 4 ≤ s.length
    · obtain ⟨n, first⟩ := number.exists_read enough
      have others := ih (s := s.drop 4) (by rw [List.length_drop]; omega)
      exact (bind_of_ok first _).trans (bind_of_error others _)
    · exact bind_of_error (number.read_of_short (by omega)) _

end Number

namespace Shape

variable {shape : Shape} {value : Value} {s : Bytes}

theorem write_row_eq_ok {count : Nat} {number : Number} :
    (row count number).write value = .ok s ↔ ∃ elements parts, value = .list elements ∧
      elements.length = count ∧ elements.mapM number.writeValue = .ok parts ∧
      parts.flatten = s := by
  constructor
  · intro wrote
    cases value with
    | list elements =>
      rw [write] at wrote
      split at wrote
      · next same =>
        obtain ⟨parts, numbers, joined⟩ := bind_eq_ok.1 wrote
        exact ⟨elements, parts, rfl, same, numbers, Except.ok.inj joined⟩
      · cases wrote
    | record | text =>
      rw [write] at wrote
      split at wrote <;> cases wrote
    | int | nothing | other => cases wrote
  · rintro ⟨elements, parts, rfl, same, numbers, rfl⟩
    rw [write, if_pos same]
    exact bind_of_ok numbers _

theorem read_append_of_write (wrote : shape.write value = .ok s) (rest : Bytes) :
    shape.read (s ++ rest) = .ok (value, rest) := by
  cases shape with
  | one number =>
    obtain ⟨n, rfl, wrote⟩ := Number.writeValue_eq_ok.1 wrote
    exact bind_of_ok (Number.read_append_of_write wrote rest) _
  | row count number =>
    obtain ⟨elements, parts, rfl, rfl, numbers, rfl⟩ := write_row_eq_ok.1 wrote
    obtain ⟨ns, rfl, read⟩ := Number.readMany_append_of_write numbers rest
    exact bind_of_ok read _

theorem length_of_write (wrote : shape.write value = .ok s) : s.length = shape.size := by
  cases shape with
  | one number =>
    obtain ⟨n, rfl, wrote⟩ := Number.writeValue_eq_ok.1 wrote
    exact Number.length_of_write wrote
  | row count number =>
    obtain ⟨elements, parts, rfl, rfl, numbers, rfl⟩ := write_row_eq_ok.1 wrote
    exact Number.length_of_mapM_write numbers

theorem exists_read (shape : Shape) (enough : shape.size ≤ s.length) :
    ∃ value, shape.read s = .ok (value, s.drop shape.size) := by
  cases shape with
  | one number =>
    obtain ⟨n, read⟩ := number.exists_read enough
    exact ⟨.int n, bind_of_ok read _⟩
  | row count number =>
    obtain ⟨ns, read⟩ := number.exists_readMany enough
    exact ⟨.list (ns.map .int), bind_of_ok read _⟩

theorem read_of_short (shape : Shape) (short : s.length < shape.size) :
    shape.read s = .error .shortInput := by
  cases shape with
  | one number => exact bind_of_error (number.read_of_short short) _
  | row count number => exact bind_of_error (number.readMany_of_short short) _

end Shape

/-- Whether two values are one. Records are if each name has the same value in both, in whatever
order they have them. -/
def Value.Same : Value → Value → Prop
  | .record fields, .record others => ∀ name, fields.lookup name = others.lookup name
  | v, w => v = w

namespace Layout

variable {layout : Layout} {value : Value} {given : List (String × Value)}
  {fields : List (String × Shape)} {s : Bytes}

theorem writeFields_cons_eq_ok {name : String} {shape : Shape} :
    writeFields given ((name, shape) :: fields) = .ok s ↔ ∃ value first others,
      given.lookup name = some value ∧ shape.write value = .ok first ∧
      writeFields given fields = .ok others ∧ first ++ others = s := by
  rw [writeFields]
  cases given.lookup name with
  | none => exact iff_of_false (fun wrote => nomatch wrote) fun ⟨_, _, _, found, _⟩ => nomatch found
  | some value =>
    constructor
    · intro wrote
      obtain ⟨first, head, wrote⟩ := bind_eq_ok.1 wrote
      obtain ⟨others, tail, same⟩ := bind_eq_ok.1 wrote
      exact ⟨value, first, others, rfl, head, tail, Except.ok.inj same⟩
    · rintro ⟨_, first, others, found, head, tail, rfl⟩
      cases found
      exact (bind_of_ok head _).trans (bind_of_ok tail _)

theorem writeFields_append_eq_ok {front back : List (String × Shape)} :
    writeFields given (front ++ back) = .ok s ↔ ∃ first others,
      writeFields given front = .ok first ∧ writeFields given back = .ok others ∧
      first ++ others = s := by
  induction front generalizing s with
  | nil =>
    constructor
    · exact fun wrote => ⟨[], s, rfl, wrote, rfl⟩
    · rintro ⟨_, others, none, wrote, rfl⟩
      cases none
      exact wrote
  | cons field front ih =>
    obtain ⟨name, shape⟩ := field
    simp only [List.cons_append, writeFields_cons_eq_ok, ih]
    constructor
    · rintro ⟨value, first, _, found, head, ⟨middle, others, wrote, tail, rfl⟩, rfl⟩
      exact ⟨first ++ middle, others, ⟨value, first, middle, found, head, wrote, rfl⟩, tail,
        List.append_assoc ..⟩
    · rintro ⟨_, others, ⟨value, first, middle, found, head, wrote, rfl⟩, tail, rfl⟩
      exact ⟨value, first, middle ++ others, found, head, ⟨middle, others, wrote, tail, rfl⟩,
        (List.append_assoc ..).symm⟩

theorem writeFields_congr {given' : List (String × Value)}
    (same : ∀ name ∈ fields.map Prod.fst, given.lookup name = given'.lookup name) :
    writeFields given fields = writeFields given' fields := by
  induction fields with
  | nil => rfl
  | cons field fields ih =>
    obtain ⟨first, same⟩ := List.forall_mem_cons.1 same
    rw [writeFields, writeFields, first, ih same]

def named (given : List (String × Value)) (fields : List (String × Shape)) :
    List (String × Value) :=
  fields.filterMap fun (name, _) => (given.lookup name).map (name, ·)

/-- What a layout takes up of a value: all of it, or the fields of a record that it names. -/
def taken (layout : Layout) (value : Value) : Value :=
  match layout with
  | plain _ => value
  | record fields =>
    match value.fields with
    | .ok given => .record (named given fields)
    | .error _ => value

def names : Layout → List String
  | plain _ => []
  | record fields => fields.map Prod.fst

/-- Whether a value has no fields but those that a layout names. -/
def Covers : Layout → Value → Prop
  | plain _, _ => True
  | record fields, value => ∃ given, value = .record given ∧
      ∀ name ∈ given.map Prod.fst, name ∈ fields.map Prod.fst

theorem readFields_append_of_write (wrote : writeFields given fields = .ok s) (rest : Bytes) :
    readFields fields (s ++ rest) = .ok (named given fields) := by
  induction fields generalizing s with
  | nil =>
    cases wrote
    rfl
  | cons field fields ih =>
    obtain ⟨value, first, others, found, head, tail, rfl⟩ := writeFields_cons_eq_ok.1 wrote
    rw [List.append_assoc, readFields]
    refine (bind_of_ok (Shape.read_append_of_write head _) _).trans ?_
    refine (bind_of_ok (ih tail) _).trans ?_
    simp only [named, List.filterMap_cons, found]
    rfl

theorem length_of_writeFields (wrote : writeFields given fields = .ok s) :
    s.length = fieldsSize fields := by
  induction fields generalizing s with
  | nil =>
    cases wrote
    rfl
  | cons field fields ih =>
    obtain ⟨value, first, others, found, head, tail, rfl⟩ := writeFields_cons_eq_ok.1 wrote
    rw [List.length_append, Shape.length_of_write head, ih tail, fieldsSize]

theorem exists_readFields (fields : List (String × Shape)) (enough : fieldsSize fields ≤ s.length) :
    ∃ shown, readFields fields s = .ok shown := by
  induction fields generalizing s with
  | nil => exact ⟨[], rfl⟩
  | cons field fields ih =>
    obtain ⟨name, shape⟩ := field
    rw [fieldsSize] at enough
    obtain ⟨value, head⟩ := shape.exists_read (s := s) (by omega)
    obtain ⟨shown, tail⟩ := ih (s := s.drop shape.size) (by rw [List.length_drop]; omega)
    exact ⟨(name, value) :: shown, (bind_of_ok head _).trans (bind_of_ok tail _)⟩

theorem read_append_of_write (wrote : layout.write value = .ok s) (rest : Bytes) :
    layout.read (s ++ rest) = .ok (layout.taken value) := by
  cases layout with
  | plain shape => exact bind_of_ok (Shape.read_append_of_write wrote rest) _
  | record fields =>
    obtain ⟨given, has, wrote⟩ := bind_eq_ok.1 wrote
    rw [taken, has]
    exact bind_of_ok (readFields_append_of_write wrote rest) _

theorem read_of_write (wrote : layout.write value = .ok s) :
    layout.read s = .ok (layout.taken value) := by
  have read := read_append_of_write wrote []
  rwa [List.append_nil] at read

theorem length_of_write (wrote : layout.write value = .ok s) : s.length = layout.size := by
  cases layout with
  | plain shape => exact Shape.length_of_write wrote
  | record fields =>
    obtain ⟨given, has, wrote⟩ := bind_eq_ok.1 wrote
    exact length_of_writeFields wrote

theorem exists_read (layout : Layout) (enough : layout.size ≤ s.length) :
    ∃ value, layout.read s = .ok value := by
  cases layout with
  | plain shape =>
    obtain ⟨value, read⟩ := shape.exists_read enough
    exact ⟨value, bind_of_ok read _⟩
  | record fields =>
    obtain ⟨shown, read⟩ := exists_readFields fields enough
    exact ⟨.record shown, bind_of_ok read _⟩

theorem readFields_of_short (short : s.length < fieldsSize fields) :
    readFields fields s = .error .shortInput := by
  induction fields generalizing s with
  | nil => exact absurd short (Nat.not_lt_zero _)
  | cons field fields ih =>
    obtain ⟨name, shape⟩ := field
    rw [fieldsSize] at short
    by_cases enough : shape.size ≤ s.length
    · obtain ⟨value, head⟩ := shape.exists_read enough
      have others := ih (s := s.drop shape.size) (by rw [List.length_drop]; omega)
      exact (bind_of_ok head _).trans (bind_of_error others _)
    · exact bind_of_error (shape.read_of_short (by omega)) _

theorem read_of_short (layout : Layout) (short : s.length < layout.size) :
    layout.read s = .error .shortInput := by
  cases layout with
  | plain shape => exact bind_of_error (shape.read_of_short short) _
  | record fields => exact bind_of_error (readFields_of_short short) _

theorem named_cons (given : List (String × Value)) (name : String) (shape : Shape) :
    named given ((name, shape) :: fields) =
      match given.lookup name with
      | none => named given fields
      | some value => (name, value) :: named given fields := by
  cases found : given.lookup name <;> simp only [named, List.filterMap_cons, found] <;> rfl

theorem named_congr {given' : List (String × Value)}
    (same : ∀ name ∈ fields.map Prod.fst, given.lookup name = given'.lookup name) :
    named given fields = named given' fields := by
  induction fields with
  | nil => rfl
  | cons field fields ih =>
    obtain ⟨first, same⟩ := List.forall_mem_cons.1 same
    rw [named_cons, named_cons, first, ih same]

theorem lookup_named_eq (given : List (String × Value)) (fields : List (String × Shape))
    (name : String) :
    (named given fields).lookup name =
      if name ∈ fields.map Prod.fst then given.lookup name else none := by
  induction fields with
  | nil => rfl
  | cons field fields ih =>
    obtain ⟨first, shape⟩ := field
    rw [List.map_cons, named_cons]
    by_cases same : name = first
    · subst same
      rw [if_pos List.mem_cons_self]
      rcases front : given.lookup name with _ | value
      · exact ih.trans (by rw [front, ite_self])
      · exact List.lookup_cons_self
    · have elsewhere : name ∈ first :: fields.map Prod.fst ↔ name ∈ fields.map Prod.fst :=
        ⟨fun member => (List.mem_cons.1 member).resolve_left same, List.mem_cons_of_mem _⟩
      simp only [elsewhere]
      rcases given.lookup first with _ | value
      · exact ih
      · refine Eq.trans ?_ ih
        simp only [List.lookup_cons, beq_false_of_ne same]

theorem lookup_named {name : String} (known : name ∈ fields.map Prod.fst)
    (found : given.lookup name = some value) : (named given fields).lookup name = some value := by
  rw [lookup_named_eq, if_pos known, found]

theorem same_taken (covers : layout.Covers value) : (layout.taken value).Same value := by
  cases layout with
  | plain shape =>
    cases value with
    | record fields => exact fun _ => rfl
    | _ => rfl
  | record fields =>
    obtain ⟨given, rfl, known⟩ := covers
    intro name
    rw [lookup_named_eq]
    split
    · rfl
    · next unknown =>
      refine (List.lookup_eq_none_iff.2 fun entry member => bne_iff_ne.2 fun same => ?_).symm
      exact unknown (known name (List.mem_map.2 ⟨entry, member, same.symm⟩))

theorem named_eq_self (order : given.map Prod.fst = fields.map Prod.fst)
    (once : (fields.map Prod.fst).Nodup) : named given fields = given := by
  induction fields generalizing given with
  | nil => exact (List.map_eq_nil_iff.1 order).symm
  | cons field fields ih =>
    obtain ⟨name, shape⟩ := field
    cases given with
    | nil => cases order
    | cons entry given =>
      obtain ⟨first, value⟩ := entry
      obtain ⟨same, others⟩ : first = name ∧ given.map Prod.fst = fields.map Prod.fst :=
        List.cons.inj order
      subst same
      obtain ⟨new, once⟩ := List.nodup_cons.1 once
      have rest : named ((first, value) :: given) fields = named given fields := by
        refine named_congr fun other member => ?_
        have differs : other ≠ first := fun same => new (same ▸ member)
        rw [List.lookup_cons, beq_false_of_ne differs]
      rw [named_cons, List.lookup_cons_self, rest, ih others once]

theorem taken_eq_self (order : given.map Prod.fst = layout.names) (once : layout.names.Nodup) :
    layout.taken (.record given) = .record given := by
  cases layout with
  | plain shape => rfl
  | record fields => exact congrArg Value.record (named_eq_self order once)

end Layout

end Keystream
