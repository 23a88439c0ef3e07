import Keystream.Proofs.Printed
import Keystream.Proofs.Text.Radix
import Keystream.Session
/-!
What a run on one memory prints. Memory that is not traced prints nothing, so all that is printed is
the trace of the two ends, and nothing if they are not traced.
-/
namespace Keystream

open Keystream.Action

/-- A text that begins with no letter that a verdict begins with. -/
def Plain (text : String) : Prop := ∃ c, text.toList.head? = some c ∧ c ≠ 'P' ∧ c ≠ 'F'

theorem Plain.append {text : String} (plain : Plain text) (rest : String) :
    Plain (text ++ rest) := by
  obtain ⟨c, first, other⟩ := plain
  refine ⟨c, ?_, other⟩
  rw [String.toList_append, List.head?_append, first]
  rfl

/-- What is printed of a run as it goes on, if it is traced. -/
def IsTrace (loud : Bool) (text : String) : Prop := loud = true ∧ Plain text

theorem Text.plain_hexFilled (width : Nat) (v : Int) : Plain (hexFilled width v) := by
  have others := forall_mem_hexFilled (p := fun c => c ≠ 'P' ∧ c ≠ 'F') (by decide) (by decide)
    width v
  have some : (hexFilled width v).toList ≠ [] := by
    simp [hexFilled, zeroFilled, hexDigits, Nat.toDigits_ne_nil]
  obtain ⟨c, rest, text⟩ := List.exists_cons_of_ne_nil some
  rw [text] at others
  exact ⟨c, by rw [text]; rfl, others c List.mem_cons_self⟩

theorem Dump.plain_rowLines (offset : Int) (previous : Option Bytes) (starred : Bool)
    (rows : List Bytes) : ∀ line ∈ rowLines {} offset previous starred rows, Plain line := by
  have begins (offset : Int) : Plain ("" ++ Text.hexFilled 8 offset) := by
    rw [String.empty_append]
    exact Text.plain_hexFilled 8 offset
  induction rows generalizing offset previous starred with
  | nil => exact List.forall_mem_nil _
  | cons row rest ih =>
    simp only [rowLines]
    split
    · refine List.forall_mem_append.2 ⟨?_, ih _ _ _⟩
      split
      · exact List.forall_mem_nil _
      · exact List.forall_mem_singleton.2 ((begins offset).append _)
    · refine List.forall_mem_cons.2 ⟨?_, ih _ _ _⟩
      exact ((((begins offset).append _).append _).append _).append _ |>.append _

variable {machine : Machine} {Q : String → Prop}

namespace Memory

def Quiet (m : Memory) : Prop := m.traced = false

theorem prints_trace (arrows : String) (addr : Int) (s : Bytes) :
    Prints Quiet Q (trace arrows addr s) := by
  refine prints_get_bind fun m quiet => ?_
  rw [show m.traced = false from quiet]
  exact prints_pure _

theorem prints_read (addr size : Int) : Prints Quiet Q (read addr size) :=
  prints_get_bind fun _ _ => (prints_liftM _).bind fun _ =>
    (prints_trace _ _ _).bind fun _ => prints_pure _

theorem prints_write (addr : Int) (s : Bytes) : Prints Quiet Q (write addr s) := by
  refine prints_get_bind fun m quiet => prints_liftM_bind fun written put => ?_
  have still : written.Quiet := by
    obtain ⟨_, _, done⟩ := bind_eq_ok.1 put
    cases done
    exact quiet
  exact (prints_trace _ _ _).bind fun _ => prints_set still

theorem prints_fill (addr value size : Int) : Prints Quiet Q (fill addr value size) :=
  (prints_liftM _).bind fun _ => prints_get_bind fun _ _ =>
    (prints_liftM _).bind fun _ => prints_write _ _

theorem prints_allocate (size align : Int) : Prints Quiet Q (allocate size align) := by
  refine (prints_step fun m addr g quiet taken => ?_).bind fun _ =>
    (prints_fill _ _ _).bind fun _ => prints_pure _
  obtain ⟨_, _, done⟩ := bind_eq_ok.1 taken
  cases done
  exact quiet

theorem prints_release (addr : Int) : Prints Quiet Q (release addr) := by
  refine prints_step fun m _ g quiet given => ?_
  obtain ⟨_, _, done⟩ := bind_eq_ok.1 given
  cases done
  exact quiet

theorem quiet_of_create {size base : Int} {heapStart : Option Int} {m : Memory}
    (created : create size base heapStart false = .ok m) : m.Quiet := by
  simp only [create, bind_eq_ok, check_eq_ok] at created
  obtain ⟨_, _, _, _, _, done⟩ := created
  cases done
  rfl

end Memory

namespace Buffers

theorem prints_allocate : Prints Memory.Quiet Q allocate :=
  (Memory.prints_allocate _ _).bind fun _ => (Memory.prints_allocate _ _).bind fun _ =>
    (Memory.prints_allocate _ _).bind fun _ => (Memory.prints_allocate _ _).bind fun _ =>
      prints_pure _

theorem prints_release (b : Buffers) : Prints Memory.Quiet Q b.release :=
  (Memory.prints_release _).bind fun _ => (Memory.prints_release _).bind fun _ =>
    (Memory.prints_release _).bind fun _ => Memory.prints_release _

section

variable {M : Memory → Prop} {P : Buffers → Prop}
  (writes : ∀ addr s, Prints M Q (Memory.write addr s))
include writes

theorem prints_storeState : Prints (Beside M P) Q storeState := by
  refine prints_get_bind fun s _ => ?_
  dsimp only
  split
  · exact prints_throw _
  · exact (writes _ _).onFirst

theorem prints_loadState (reads : ∀ addr size, Prints M Q (Memory.read addr size)) (counter : Int) :
    Prints (Beside M fun _ => True) Q (loadState counter) :=
  prints_get_bind fun _ _ => (reads _ _).onFirst.bind fun _ =>
    (reads _ _).onFirst.bind fun _ => (prints_liftM _).bind fun _ =>
      (prints_modify fun _ _ => trivial).onSecond.bind fun _ =>
        (prints_storeState writes).bind fun _ => prints_pure _

end

end Buffers

namespace Oracle

variable {μ : Type} {P : μ → Prop} {mem : MemoryAccess μ} {loud : Bool}

def Loud (loud : Bool) (o : Oracle) : Prop := o.traced = loud

theorem prints_alter {f : Oracle → Oracle} (kept : ∀ o, (f o).traced = o.traced) :
    Prints (Beside P (Loud loud)) Q (alter f) :=
  (prints_modify fun o (same : o.traced = loud) => (kept o).trans same).onSecond

theorem prints_note {line : String} (has : loud = true → Q (line ++ "\n")) :
    Prints (Beside P (Loud loud)) Q (note line) := by
  refine prints_get_bind fun s holds => prints_ite (fun traced => ?_) fun _ => prints_pure _
  exact prints_printLine (has (holds.2.symm.trans traced))

section

variable (reads : ∀ addr size, Prints P (IsTrace loud) (mem.read addr size))
include reads

theorem prints_announce (addr : Int) :
    Prints (Beside P (Loud loud)) (IsTrace loud) (announce mem addr) := by
  refine Prints.bind (prints_alter fun _ => rfl) fun _ => prints_get_bind fun s _ => ?_
  refine prints_ite (fun _ => prints_note fun traced => ?_) fun _ =>
    prints_ite (fun _ => ?_) fun _ => prints_throw _
  · exact ⟨traced, 'o', by simp [toString], by decide, by decide⟩
  · refine (reads _ _).onFirst.bind fun block =>
      Prints.bind (prints_alter fun _ => rfl) fun _ => prints_note fun traced => ?_
    exact ⟨traced, 'o', by simp [toString], by decide, by decide⟩

variable (writes : ∀ addr s, Prints P (IsTrace loud) (mem.write addr s))
include writes

theorem prints_answer {sig : Signal} (plain : sig ∉ [.displayBytes, .displayWords]) (value : Int) :
    Prints (Beside P (Loud loud)) (IsTrace loud) (answer mem sig.code value) := by
  refine prints_get_bind fun s _ => prints_ite (fun _ => prints_throw _) fun _ => ?_
  rw [Signal.ofCode?_code]
  cases sig with
  | keyAddress =>
    refine Prints.bind (prints_alter fun _ => rfl) fun _ => (writes _ _).onFirst.bind fun _ =>
      (prints_note fun traced => ?_).bind fun _ => prints_pure _
    exact ⟨traced, 'k', by simp [toString], by decide, by decide⟩
  | nonceAddress =>
    refine Prints.bind (prints_alter fun _ => rfl) fun _ => (writes _ _).onFirst.bind fun _ =>
      (prints_note fun traced => ?_).bind fun _ => prints_pure _
    exact ⟨traced, 'n', by simp [toString], by decide, by decide⟩
  | iterations =>
    refine (prints_liftM _).bind fun _ => (prints_note fun traced => ?_).bind fun _ => prints_pure _
    exact ⟨traced, 'i', by simp [toString], by decide, by decide⟩
  | outputAddress => exact (prints_announce reads _).bind fun _ => prints_pure _
  | displayBytes => exact absurd plain (by decide)
  | displayWords => exact absurd plain (by decide)

end

theorem prints_finish :
    Prints (Beside P (Loud loud)) (IsTrace loud) (finish : Action (μ × Oracle) Unit) := by
  refine prints_get_bind fun s _ => prints_ite (fun _ => prints_throw _) fun _ =>
    Prints.bind (prints_alter fun _ => rfl) fun _ =>
      prints_ite (fun _ => prints_throw _) fun _ => prints_note fun traced => ?_
  exact ⟨traced, 'h', by simp, by decide, by decide⟩

end Oracle

namespace Host

variable {σ : Type} {P : σ → Prop} {host : Host σ} {loud : Bool}

theorem prints_loopback_signal {sig value : Int}
    (prints : Prints P (IsTrace loud) (host.signal sig value)) :
    Prints P (IsTrace loud) ((host.loopback loud).signal sig value) := by
  cases loud with
  | false => exact prints.bind fun _ => prints_pure _
  | true =>
    refine (prints_liftM _).bind fun _ => (prints_printLine ?_).bind fun _ =>
      prints.bind fun answer => (prints_printLine ?_).bind fun _ => prints_pure _
    · exact ⟨rfl, 'S', by simp [toString], by decide, by decide⟩
    · exact ⟨rfl, 'S', by simp [toString], by decide, by decide⟩

theorem prints_loopback_halt (prints : Prints P (IsTrace loud) host.halt) :
    Prints P (IsTrace loud) (host.loopback loud).halt := by
  cases loud with
  | false => exact prints
  | true =>
    refine (prints_printLine ?_).bind fun _ => prints
    exact ⟨rfl, 'S', by simp [toString], by decide, by decide⟩

end Host

namespace Program

variable {π : Type} {M : Memory → Prop} {P : π → Prop} {loud : Bool}

def Telling (M : Memory → Prop) (P : π → Prop) (loud : Bool) : Running π → Prop :=
  Beside (Beside M P) fun p => p.traced = loud

theorem prints_enter (phase : Phase) : Prints (Telling M P loud) Q (enter phase) :=
  (prints_modify fun _ same => same).onSecond

theorem prints_memory {a : Action Memory α} (prints : Prints M Q a) :
    Prints (Telling M P loud) Q (memory a) :=
  prints.onFirst.onFirst

theorem prints_inBuffers {a : Action (Memory × Buffers) α}
    (prints : Prints (Beside M fun _ => True) Q a) :
    Prints (Telling M P loud) Q (inBuffers a) := by
  rintro ⟨⟨m, peer⟩, p⟩ ⟨⟨holds, has⟩, same⟩
  obtain ⟨⟨still, _⟩, told⟩ := prints (m, p.buffers) ⟨holds, trivial⟩
  exact ⟨⟨⟨still, has⟩, same⟩, told⟩

theorem prints_note (text : String) : Prints (Telling M P loud) (IsTrace loud) (note text) := by
  refine prints_get_bind fun s holds => prints_ite (fun traced => ?_) fun _ => prints_pure _
  exact prints_printLine
    ⟨holds.2.symm.trans traced, '[', by simp [toString], by decide, by decide⟩

theorem prints_expect (stage : Stage) : Prints (Telling M P loud) Q (expect stage) :=
  prints_get_bind fun _ _ => prints_ite (fun _ => prints_throw _) fun _ => prints_pure _

variable (reads : ∀ addr size, Prints M Q (Memory.read addr size))
  (writes : ∀ addr s, Prints M Q (Memory.write addr s))
  (notes : ∀ text, Prints (Telling M P loud) Q (note text))

include reads writes notes in
theorem prints_loop (s : State) (count : Int) : Prints (Telling M P loud) Q (loop s count) := by
  refine prints_get_bind fun _ _ => (prints_memory (reads _ _)).bind fun _ =>
    (prints_liftM _).bind fun (block, s) =>
      Prints.bind (Prints.onSecond (prints_modify fun _ same => same)) fun _ => ?_
  exact (prints_memory (writes _ _)).bind fun _ =>
    (prints_inBuffers (Buffers.prints_storeState writes)).bind fun _ =>
      (notes _).bind fun _ => prints_pure _

variable {channel : Channel (Target π)}
  (asks : ∀ sig : Signal, sig ∉ [.displayBytes, .displayWords] → ∀ value,
    Prints (Beside M P) Q (channel.signal sig.code value))

include asks in
theorem prints_signal {sig : Signal} (plain : sig ∉ [.displayBytes, .displayWords]) (value : Int) :
    Prints (Telling M P loud) Q (signal channel sig value) :=
  prints_get_bind fun _ _ => prints_ite (fun _ => prints_throw _) fun _ =>
    (asks sig plain value).onFirst

include reads writes notes asks

theorem prints_generate : Prints (Telling M P loud) Q (generate channel) := by
  have known : Prints (Telling M P loud) Q (expectIterations : Action (Running π) Int) := by
    refine prints_get_bind fun s _ => ?_
    split
    · exact prints_pure _
    · exact prints_throw _
  have announced (addr : Int) :
      Prints (Telling M P loud) Q (signal channel .outputAddress addr) :=
    prints_signal asks (by decide) addr
  exact known.bind fun _ => prints_get_bind fun _ _ => (prints_liftM _).bind fun _ =>
    (prints_inBuffers (Buffers.prints_loadState writes reads _)).bind fun _ =>
      (notes _).bind fun _ => (announced _).bind fun _ => (prints_enter _).bind fun _ =>
        (prints_loop reads writes notes _ _).bind fun _ => (announced _).bind fun _ =>
          (prints_enter _).bind fun _ => prints_pure _

/-- A run prints what its memory and its notes print, and what its channel prints for signals and
halt; and it keeps what these keep. -/
theorem prints_run (halts : Prints (Beside M P) Q channel.halt) :
    Prints (Telling M P loud) Q (run channel) := by
  have halted : Prints (Telling M P loud) Q (halt channel) := by
    refine prints_get_bind fun s _ => ?_
    split
    · exact (prints_enter _).bind fun _ => halts.onFirst
    · exact prints_throw _
  have published {sig : Signal} (plain : sig ∉ [.displayBytes, .displayWords]) (stage : Stage)
      (address : Running π → Int) (phase : Phase) :
      Prints (Telling M P loud) Q (do
        expect stage
        let _ ← signal channel sig (address (← get))
        enter phase) :=
    (prints_expect _).bind fun _ => prints_get_bind fun _ _ =>
      (prints_signal asks plain _).bind fun _ => prints_enter _
  have requested : Prints (Telling M P loud) Q (requestIterations channel) :=
    (prints_expect _).bind fun _ => (prints_signal asks (by decide) _).bind fun _ =>
      (prints_enter _).bind fun _ => (prints_liftM _).bind fun _ => (notes _).bind fun _ =>
        prints_pure _
  exact (published (by decide) _ (·.2.buffers.key) _).bind fun _ =>
    (published (by decide) _ (·.2.buffers.nonce) _).bind fun _ => requested.bind fun _ =>
      (prints_generate reads writes notes asks).bind fun _ => halted.bind fun _ => prints_pure _

end Program

namespace Session

theorem prints_runLoopback (task : Task) (quest : Quest) (same : task.traced = quest.traced) :
    Prints Memory.Quiet (IsTrace quest.traced) (runLoopback task quest) := by
  refine prints_liftM_bind fun o made => prints_get_bind fun m _ => ?_
  have loud : o.Loud quest.traced := by
    simp only [Quest.oracle, Oracle.create, bind_eq_ok, check_eq_ok] at made
    obtain ⟨_, _, _, _, _, done⟩ := made
    cases done
    rfl
  have ran : Prints (Beside Memory.Quiet (Oracle.Loud quest.traced)) (IsTrace quest.traced)
      (runProgram task ((Oracle.host (Memory.access m.base)).loopback quest.traced)) := by
    refine Buffers.prints_allocate.onFirst.bind fun b =>
      Prints.bind (.ensuring (.withLocal (Program.prints_run Memory.prints_read Memory.prints_write
        Program.prints_note (fun sig plain value => ?_) ?_) same)
        (Buffers.prints_release b).onFirst) fun _ => prints_pure _
    · exact Host.prints_loopback_signal ((Oracle.prints_answer Memory.prints_read
        Memory.prints_write plain value).bind fun _ => prints_pure _)
    · exact Host.prints_loopback_halt Oracle.prints_finish
  exact (ran.withLocal loud).bind fun _ => prints_pure _

end Session

end Keystream
