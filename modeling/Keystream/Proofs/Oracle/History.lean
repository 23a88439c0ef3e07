import Keystream.Proofs.Memory.Bytes
import Keystream.Proofs.Oracle
import Mathlib.Data.List.Induction
/-!
Histories of an oracle beside the memory of a program. Whatever order signals, halts and checks come
in and whichever of them fail, the output is what memory held when its buffer was announced for the
second time, and what is on record of it is never changed.
-/
namespace Keystream.Oracle

open Keystream.Action

/-- What is asked of an oracle, or happens to the memory that it sees. -/
inductive Call where
  | signal (sig value : Int)
  | halt
  | verify (expected : Bytes)
  | write (addr : Int) (s : Bytes)

namespace Call

def perform [Machine] (mem : MemoryAccess Memory) : Call → Action (Memory × Oracle) Unit
  | signal sig value => do let _ ← (host mem).signal sig value
  | halt => (host mem).halt
  | verify expected => do (← get).2.verify expected
  | write addr s => (mem.write addr s).onFirst

def announces : Call → Bool
  | signal sig _ => sig == Signal.outputAddress.code
  | _ => false

theorem announces_iff {call : Call} :
    call.announces = true ↔ ∃ addr, call = signal Signal.outputAddress.code addr := by
  cases call with
  | signal sig value =>
    rw [announces, beq_iff_eq]
    exact ⟨fun same => ⟨value, same ▸ rfl⟩, fun ⟨_, same⟩ => (signal.inj same).1⟩
  | _ => exact ⟨nofun, nofun⟩

def mayChange : Call → Int → Prop
  | signal sig addr, a =>
    sig = Signal.keyAddress.code ∧ addr ≤ a ∧ a < addr + 32 ∨
      sig = Signal.nonceAddress.code ∧ addr ≤ a ∧ a < addr + 12
  | write addr s, a => addr ≤ a ∧ a < addr + s.length
  | _, _ => False

end Call

/-- What an oracle has on record of a run. -/
structure Record where
  halted : Bool
  announcements : Nat
  output : Option Bytes
  deriving DecidableEq

def record (o : Oracle) : Record := ⟨o.halted, o.announcements, o.output⟩

/-- The record after a call, in front of memory as the call finds it. -/
def Record.next (r : Record) (m : Memory) : Call → Record
  | .signal sig addr =>
    if r.halted = false ∧ sig = Signal.outputAddress.code then
      { r with
        announcements := r.announcements + 1
        output :=
          if r.announcements = 1 ∧ m.Holds addr 64 then some (m.stretch addr 64) else r.output }
    else r
  | .halt => { r with halted := true }
  | .verify _ | .write .. => r

section

variable {machine : Machine} {base : Int} {m : Memory} {may : Int → Prop}
  {P : Memory × Oracle → Prop}

theorem keeps_note (line : String) : Keeps P (note line) :=
  keeps_of_unchanged fun (s, o) => by rw [effect_note]

theorem keeps_alter {f : Oracle → Oracle} (kept : ∀ m o, P (m, o) → P (m, f o)) :
    Keeps P (alter f) :=
  fun (m, o) holds => kept m o holds

theorem keeps_read (addr size : Int) :
    Keeps P (((Memory.access base).read addr size).onFirst : Action (Memory × Oracle) Bytes) :=
  keeps_of_unchanged fun (m, o) => by
    show (((Memory.read addr size).effect m).2, o) = (m, o)
    rw [Memory.effect_read]

theorem keeps_write {r : Record} {addr : Int} {s : Bytes}
    (within : ∀ a, addr ≤ a → a < addr + s.length → may a) :
    Keeps (fun x => x.2.record = r ∧ m.ChangedOnly may x.1)
      (((Memory.access base).write addr s).onFirst : Action (Memory × Oracle) Unit) :=
  fun _ ⟨same, kept⟩ => ⟨same, kept.trans (Memory.changedOnly_write within _)⟩

section

variable (unseen : ∀ (m : Memory) (o : Oracle) shown, P (m, o) → P (m, { o with shown }))
include unseen

theorem keeps_showBytes (value : Int) : Keeps P (showBytes (Memory.access base) value) := by
  refine Keeps.bind (keeps_read _ _) fun s => ?_
  refine Keeps.bind (keeps_alter fun m o holds => unseen m o _ holds) fun _ => ?_
  exact keeps_of_unchanged fun _ => rfl

theorem keeps_showWords (value : Int) : Keeps P (showWords (Memory.access base) value) := by
  refine Keeps.bind (keeps_read _ _) fun s => ?_
  split
  · exact keeps_of_unchanged fun _ => rfl
  refine Keeps.bind (keeps_alter fun m o holds => unseen m o _ holds) fun _ => ?_
  refine Keeps.bind (keeps_liftM _) fun _ => ?_
  exact keeps_of_unchanged fun _ => rfl

end

theorem keeps_answer {sig : Int} (quiet : sig ≠ Signal.outputAddress.code) (r : Record)
    (value : Int) :
    Keeps (fun x => x.2.record = r ∧ m.ChangedOnly (Call.signal sig value).mayChange x.1)
      (answer (Memory.access base) sig value) := by
  refine Keeps.bind keeps_get fun x => ?_
  dsimp only
  split
  · exact keeps_throw _
  have unseen (m' : Memory) (o : Oracle) (shown : List Shown)
      (kept : o.record = r ∧ m.ChangedOnly (Call.signal sig value).mayChange m') :
      { o with shown }.record = r ∧ m.ChangedOnly (Call.signal sig value).mayChange m' := kept
  rcases known : Signal.ofCode? sig with _ | sent
  · exact keeps_throw _
  obtain rfl := Signal.code_of_ofCode? known
  cases sent with
  | keyAddress =>
    refine Keeps.bind (keeps_alter fun _ _ kept => kept) fun _ => ?_
    refine Keeps.bind (keeps_write fun a low high => .inl ⟨rfl, low, ?_⟩) fun _ => ?_
    · rwa [Vector.length_toList] at high
    exact Keeps.bind (keeps_note _) fun _ => keeps_pure _
  | nonceAddress =>
    refine Keeps.bind (keeps_alter fun _ _ kept => kept) fun _ => ?_
    refine Keeps.bind (keeps_write fun a low high => .inr ⟨rfl, low, ?_⟩) fun _ => ?_
    · rwa [Vector.length_toList] at high
    exact Keeps.bind (keeps_note _) fun _ => keeps_pure _
  | iterations =>
    exact Keeps.bind (keeps_liftM _) fun _ => Keeps.bind (keeps_note _) fun _ => keeps_pure _
  | outputAddress => exact absurd rfl quiet
  | displayBytes => exact Keeps.bind (keeps_showBytes unseen value) fun _ => keeps_pure _
  | displayWords => exact Keeps.bind (keeps_showWords unseen value) fun _ => keeps_pure _

end

section

variable {machine : Machine} (base : Int) (m : Memory) (o : Oracle)

/-- Every announcement counts; the second one takes down what memory holds, if it can be read. -/
theorem announced (addr : Int) :
    ∃ told : Oracle, ((announce (Memory.access base) addr).effect (m, o)).2 = (m, told) ∧
      told.record = ⟨o.halted, o.announcements + 1,
        if o.announcements = 1 ∧ m.Holds addr 64 then some (m.stretch addr 64) else o.output⟩ := by
  rcases count : o.announcements with _ | _ | n
  · rw [effect_announce_first count]
    exact ⟨_, rfl, rfl⟩
  · by_cases inside : m.Holds addr 64
    · rw [effect_announce_second count (Memory.effect_read_of_holds inside), if_pos ⟨rfl, inside⟩]
      exact ⟨_, rfl, rfl⟩
    · have fails : ((Memory.access base).read addr 64).effect m = (.error _, m) :=
        (Memory.effect_read m addr 64).trans
          (congrArg (·, m) (Memory.bytesAt_of_not_holds (n := 64) inside))
      rw [effect_announce_unread count fails, if_neg fun both => inside both.2]
      exact ⟨_, rfl, rfl⟩
  · have late : 1 < o.announcements := by omega
    rw [effect_announce_late late, if_neg (by omega), count]
    exact ⟨_, rfl, rfl⟩

theorem effect_perform_signal (sig value : Int) :
    (((Call.signal sig value).perform (Memory.access base)).effect (m, o)).2 =
      ((answer (Memory.access base) sig value).effect (m, o)).2 := by
  show (((answer (Memory.access base) sig value >>= fun r => Pure.pure (some r)) >>= fun _ =>
    Pure.pure ()).effect (m, o)).2 = _
  rw [effect_bind_pure, effect_bind_pure]

theorem effect_perform_halt :
    (((Call.halt).perform (Memory.access base)).effect (m, o)).2 =
      (m, { o with halted := true }) := by
  show ((finish : Action (Memory × Oracle) Unit).effect (m, o)).2 = _
  by_cases ended : o.halted = true
  · rw [effect_finish_of_halted ended, ← ended]
  · rw [Bool.not_eq_true] at ended
    rcases Option.eq_none_or_eq_some o.output with shown | ⟨block, shown⟩
    · rw [effect_finish_early ended shown]
    · rw [effect_finish ended shown]

theorem performed (call : Call) :
    let t := ((call.perform (Memory.access base)).effect (m, o)).2
    t.2.record = o.record.next m call ∧ m.ChangedOnly call.mayChange t.1 := by
  cases call with
  | signal sig value =>
    rw [effect_perform_signal]
    by_cases speaks : o.halted = false ∧ sig = Signal.outputAddress.code
    · obtain ⟨running, rfl⟩ := speaks
      obtain ⟨told, same, record⟩ := announced base m o value
      rw [show Signal.outputAddress.code = 3 from rfl, effect_answer_announce running, same]
      refine ⟨record.trans ?_, .refl ..⟩
      exact (if_pos ⟨running, rfl⟩).symm
    have unchanged : o.record.next m (.signal sig value) = o.record := if_neg speaks
    rw [unchanged]
    by_cases ended : o.halted = true
    · rw [effect_answer_of_halted ended]
      exact ⟨rfl, .refl ..⟩
    · have quiet : sig ≠ Signal.outputAddress.code := fun same =>
        speaks ⟨Bool.eq_false_iff.2 ended, same⟩
      exact keeps_answer quiet o.record value (m, o) ⟨rfl, .refl ..⟩
  | halt =>
    rw [effect_perform_halt]
    exact ⟨rfl, .refl ..⟩
  | verify expected => exact ⟨rfl, .refl ..⟩
  | write addr s => exact ⟨rfl, Memory.changedOnly_write (fun _ low high => ⟨low, high⟩) m⟩

end

def afterCalls [Machine] (base : Int) (calls : List Call) (s : Memory × Oracle) : Memory × Oracle :=
  after (calls.map (Call.perform (Memory.access base))) s

theorem afterCalls_concat [Machine] (base : Int) (calls : List Call) (call : Call)
    (s : Memory × Oracle) :
    afterCalls base (calls ++ [call]) s =
      ((call.perform (Memory.access base)).effect (afterCalls base calls s)).2 := by
  rw [afterCalls, List.map_append, after_append]
  rfl

/-- Whether some calls announce the output for the second time, before any halt, where memory holds
all of `block`. -/
def Captured [Machine] (base : Int) (s : Memory × Oracle) (calls : List Call) (block : Bytes) :
    Prop :=
  ∃ before addr rest, calls = before ++ .signal Signal.outputAddress.code addr :: rest ∧
    .halt ∉ before ∧ before.countP Call.announces = 1 ∧
    (afterCalls base before s).1.Holds addr 64 ∧
    block = (afterCalls base before s).1.stretch addr 64

section

variable {machine : Machine} {base : Int} {s : Memory × Oracle} {calls : List Call}
  {block : Bytes}

theorem Captured.append (captured : Captured base s calls block) (more : List Call) :
    Captured base s (calls ++ more) block := by
  obtain ⟨before, addr, rest, rfl, told⟩ := captured
  exact ⟨before, addr, rest ++ more, List.append_assoc .., told⟩

theorem Captured.lt_countP (captured : Captured base s calls block) :
    1 < calls.countP Call.announces := by
  obtain ⟨before, addr, rest, rfl, _, once, _⟩ := captured
  rw [List.countP_append, List.countP_cons_of_pos rfl]
  omega

theorem captured_concat (call : Call) :
    Captured base s (calls ++ [call]) block ↔
      Captured base s calls block ∨
        ∃ addr, call = .signal Signal.outputAddress.code addr ∧ .halt ∉ calls ∧
          calls.countP Call.announces = 1 ∧ (afterCalls base calls s).1.Holds addr 64 ∧
          block = (afterCalls base calls s).1.stretch addr 64 := by
  constructor
  · rintro ⟨before, addr, rest, cut, told⟩
    rcases List.eq_nil_or_concat rest with rfl | ⟨rest, last, rfl⟩
    · obtain ⟨rfl, same⟩ := List.append_inj' cut rfl
      exact .inr ⟨addr, List.singleton_inj.1 same, told⟩
    · rw [List.concat_eq_append, ← List.cons_append, ← List.append_assoc] at cut
      exact .inl ⟨before, addr, rest, (List.append_inj' cut rfl).1, told⟩
  · rintro (captured | ⟨addr, rfl, told⟩)
    · exact captured.append _
    · exact ⟨calls, addr, [], rfl, told⟩

/-- What a record tells of the calls before it. -/
structure Record.Tells [Machine] (r : Record) (base : Int) (s : Memory × Oracle)
    (calls : List Call) : Prop where
  halted : r.halted = true ↔ .halt ∈ calls
  counted : .halt ∉ calls → r.announcements = calls.countP Call.announces
  captured : ∀ block, r.output = some block ↔ Captured base s calls block

namespace Record.Tells

variable {r : Record}

theorem running_iff (t : r.Tells base s calls) : r.halted = false ↔ .halt ∉ calls := by
  rw [← t.halted, Bool.not_eq_true]

theorem concat_of_silent {call : Call} (t : r.Tells base s calls) (runs : call ≠ .halt)
    (silent : ∀ addr, call = .signal Signal.outputAddress.code addr → .halt ∈ calls) :
    r.Tells base s (calls ++ [call]) where
  halted := by
    rw [List.mem_append, List.mem_singleton, or_iff_left runs.symm]
    exact t.halted
  counted unhalted := by
    have running : .halt ∉ calls := fun ended => unhalted (List.mem_append_left _ ended)
    have quiet : ¬call.announces = true := fun speaks =>
      have ⟨addr, same⟩ := Call.announces_iff.1 speaks
      running (silent addr same)
    rw [List.countP_append, List.countP_cons_of_neg quiet]
    exact t.counted running
  captured block := by
    rw [captured_concat, or_iff_left fun ⟨addr, same, running, _⟩ => running (silent addr same)]
    exact t.captured block

theorem concat_of_halt (t : r.Tells base s calls) :
    Record.Tells { r with halted := true } base s (calls ++ [.halt]) where
  halted := iff_of_true rfl (List.mem_append_right _ (List.mem_singleton_self _))
  counted running := absurd (List.mem_append_right _ (List.mem_singleton_self _)) running
  captured block := by
    rw [captured_concat, or_iff_left fun ⟨_, same, _⟩ => nomatch same]
    exact t.captured block

theorem concat_of_announcement (t : r.Tells base s calls) (running : .halt ∉ calls) (addr : Int) :
    Record.Tells { r with
      announcements := r.announcements + 1
      output :=
        if r.announcements = 1 ∧ (afterCalls base calls s).1.Holds addr 64 then
          some ((afterCalls base calls s).1.stretch addr 64)
        else r.output } base s
      (calls ++ [.signal Signal.outputAddress.code addr]) where
  halted := by
    rw [List.mem_append, List.mem_singleton, or_iff_left nofun]
    exact t.halted
  counted _ := by
    rw [List.countP_append, List.countP_cons_of_pos rfl]
    exact congrArg (· + 1) (t.counted running)
  captured block := by
    rw [captured_concat]
    have counted := t.counted running
    by_cases seen : r.announcements = 1 ∧ (afterCalls base calls s).1.Holds addr 64
    · obtain ⟨once, inside⟩ := seen
      rw [if_pos ⟨once, inside⟩, Option.some_inj]
      constructor
      · rintro rfl
        exact .inr ⟨addr, rfl, running, counted ▸ once, inside, rfl⟩
      · rintro (captured | ⟨_, same, _, _, _, rfl⟩)
        · have := captured.lt_countP
          omega
        · rw [(Call.signal.inj same).2]
    · rw [if_neg seen, t.captured block]
      refine (or_iff_left fun ⟨_, same, _, once, inside, _⟩ => seen ?_).symm
      rw [(Call.signal.inj same).2]
      exact ⟨counted.trans once, inside⟩

theorem next (t : r.Tells base s calls) (call : Call) :
    (r.next (afterCalls base calls s).1 call).Tells base s (calls ++ [call]) := by
  cases call with
  | signal sig addr =>
    by_cases speaks : r.halted = false ∧ sig = Signal.outputAddress.code
    · obtain ⟨running, rfl⟩ := speaks
      rw [Record.next, if_pos ⟨running, rfl⟩]
      exact t.concat_of_announcement (t.running_iff.1 running) addr
    · rw [Record.next, if_neg speaks]
      refine t.concat_of_silent nofun fun _ same => ?_
      by_contra running
      exact speaks ⟨t.running_iff.2 running, (Call.signal.inj same).1⟩
  | halt => exact t.concat_of_halt
  | verify | write => exact t.concat_of_silent nofun nofun

end Record.Tells

theorem captured_nil : ¬Captured base s [] block := fun captured =>
  absurd captured.lt_countP (Nat.not_lt_zero _)

/-- The record of an oracle tells of all calls since it was made. -/
theorem record_tells (fresh : s.2.record = ⟨false, 0, none⟩) (calls : List Call) :
    (afterCalls base calls s).2.record.Tells base s calls := by
  induction calls using List.reverseRecOn with
  | nil =>
    rw [show (afterCalls base [] s).2.record = _ from fresh]
    exact ⟨iff_of_false nofun nofun, fun _ => rfl, fun _ => iff_of_false nofun captured_nil⟩
  | append_singleton calls call ih =>
    rw [afterCalls_concat, (performed base _ _ call).1]
    exact ih.next call

theorem record_of_create {key nonce : Bytes} {iterations : Int} {traced : Bool} {o : Oracle}
    (created : create key nonce iterations traced = .ok o) : o.record = ⟨false, 0, none⟩ := by
  simp only [create, bind_eq_ok, check_eq_ok] at created
  obtain ⟨_, _, _, _, _, made⟩ := created
  cases made
  rfl

end

end Keystream.Oracle
