import Keystream.Proofs.Program.Path
import Keystream.Proofs.Program.Run
/-!
The methods of a program as stretches of its path. What each does is put together from the signals
it sends and the work between them, which the host does not see.
-/
namespace Keystream

open Keystream.Action

namespace Buffers

variable {b c : Buffers}

theorem signals_eq (same : c.addresses = b.addresses) : c.signals = b.signals := by
  obtain ⟨key, nonce, state, output, _⟩ := b
  simp only [addresses, List.cons.injEq] at same
  obtain ⟨rfl, rfl, rfl, rfl, _⟩ := same
  rfl

theorem keeps_addresses_storeState :
    Keeps (fun s : Memory × Buffers => s.2.addresses = b.addresses) storeState := by
  refine keeps_get.bind fun s => ?_
  dsimp only
  split
  · exact keeps_throw _
  · exact keeps_onFirst (Q := fun c : Buffers => c.addresses = b.addresses) _

theorem keeps_addresses_loadState (counter : Int) :
    Keeps (fun s : Memory × Buffers => s.2.addresses = b.addresses) (loadState counter) := by
  have reads (addr size : Int) :
      Keeps (fun s : Memory × Buffers => s.2.addresses = b.addresses)
        (Memory.read addr size).onFirst :=
    keeps_onFirst (Q := fun c : Buffers => c.addresses = b.addresses) _
  exact keeps_get.bind fun _ => (reads _ _).bind fun _ => (reads _ _).bind fun _ =>
    (keeps_liftM _).bind fun _ => Keeps.bind (fun _ same => same) fun _ =>
      keeps_addresses_storeState.bind fun _ => keeps_pure _

end Buffers

namespace Program

variable {machine : Machine} {π : Type} {channel : Channel (Target π)} {b : Buffers}
  {phase : Phase} {α β : Type}

/-- Whether a program in `phase` that owns the buffers of `b` passes along a path, and comes to a
phase with `next` if the action succeeds. -/
def Leads (channel : Channel (Target π)) (b : Buffers) (phase : Phase) (a : Action (Running π) α)
    (next : α → Phase → Prop) : Prop :=
  ∀ s : Running π, s.2.phase = phase → s.2.buffers.addresses = b.addresses →
    (∃ xs, Path channel b s xs (a.effect s).2) ∧
      (a.effect s).2.2.buffers.addresses = b.addresses ∧
      ∀ x, (a.effect s).1 = .ok x → next x (a.effect s).2.2.phase

/-- What an action without calls keeps: the host's part of the world, phase and addresses. -/
def Still (peer : π) (phase : Phase) (b : Buffers) (s : Running π) : Prop :=
  s.1.2 = peer ∧ s.2.phase = phase ∧ s.2.buffers.addresses = b.addresses

section

variable {peer : π}

theorem keeps_memory (a : Action Memory α) : Keeps (Still peer phase b) (memory a) :=
  fun _ still => still

theorem keeps_inBuffers {a : Action (Memory × Buffers) α}
    (kept : Keeps (fun s => s.2.addresses = b.addresses) a) :
    Keeps (Still peer phase b) (inBuffers a) :=
  fun s still => ⟨still.1, still.2.1, kept (s.1.1, s.2.buffers) still.2.2⟩

theorem keeps_note (text : String) : Keeps (Still peer phase b) (note text) :=
  keeps_of_unchanged fun s => by rw [effect_note]

theorem keeps_loop (s : State) (count : Int) : Keeps (Still peer phase b) (loop s count) :=
  keeps_get.bind fun _ => (keeps_memory _).bind fun _ => (keeps_liftM _).bind fun _ =>
    Keeps.bind (fun _ still => still) fun _ => (keeps_memory _).bind fun _ =>
      (keeps_inBuffers Buffers.keeps_addresses_storeState).bind fun _ =>
        (keeps_note _).bind fun _ => keeps_pure _

end

/-! How paths are put together from actions. -/

theorem leads_of_keeps {a : Action (Running π) α}
    (kept : ∀ peer, Keeps (Still peer phase b) a) :
    Leads channel b phase a fun _ => (· = phase) := by
  rintro ⟨⟨m, peer⟩, p⟩ here same
  obtain ⟨samePeer, samePhase, sameBuffers⟩ := kept peer ⟨⟨m, peer⟩, p⟩ ⟨rfl, here, same⟩
  rcases done : a.effect ((m, peer), p) with ⟨r, ⟨n, peer'⟩, q⟩
  rw [done] at samePeer samePhase sameBuffers
  obtain rfl : peer' = peer := samePeer
  exact ⟨⟨[], .work (samePhase.trans here.symm) (.done _)⟩, sameBuffers, fun _ _ => samePhase⟩

theorem leads_pure {x : α} {next : α → Phase → Prop} (ends : next x phase) :
    Leads channel b phase (Pure.pure x) next := by
  refine fun s here same => ⟨⟨[], .done s⟩, same, fun y given => ?_⟩
  cases given
  exact here ▸ ends

variable {a : Action (Running π) α} {next : β → Phase → Prop}

theorem Leads.bind {middle : α → Phase → Prop} {f : α → Action (Running π) β}
    (first : Leads channel b phase a middle)
    (rest : ∀ x q, middle x q → Leads channel b q (f x) next) :
    Leads channel b phase (a >>= f) next := by
  intro s here same
  obtain ⟨⟨xs, path⟩, same, leads⟩ := first s here same
  rcases done : a.effect s with ⟨e | x, t⟩
  · rw [done] at path same
    rw [effect_bind_of_error done]
    exact ⟨⟨xs, path⟩, same, fun _ given => (nomatch given)⟩
  · rw [done] at path same leads
    obtain ⟨⟨ys, further⟩, same, leads⟩ := rest x _ (leads x rfl) t rfl same
    rw [effect_bind_of_ok done]
    exact ⟨⟨xs ++ ys, path.append further⟩, same, leads⟩

theorem Leads.bind_still {f : α → Action (Running π) β}
    (first : Leads channel b phase a fun _ => (· = phase))
    (rest : ∀ x, Leads channel b phase (f x) next) : Leads channel b phase (a >>= f) next :=
  first.bind fun x _ same => same ▸ rest x

theorem Leads.forget {a : Action (Running π) β} (leads : Leads channel b phase a next) :
    Leads channel b phase a fun _ _ => True := fun s here same =>
  have ⟨path, same, _⟩ := leads s here same
  ⟨path, same, fun _ _ => trivial⟩

theorem leads_get_bind {f : Running π → Action (Running π) β}
    (rest : ∀ s : Running π, s.2.phase = phase → s.2.buffers.addresses = b.addresses →
      Leads channel b phase (f s) next) : Leads channel b phase (get >>= f) next := by
  intro s here same
  rw [effect_get_bind]
  exact rest s here same s here same

theorem leads_signal {sig : Signal} {value : Int} {f : Int → Action (Running π) β}
    (due : b.signals[phase.rank]? = some (sig.code, value))
    (rest : ∀ r, Leads channel b (phase.next r) (f r) next) :
    Leads channel b phase
      (signal channel sig value >>= fun r => enter (phase.next r) >>= fun _ => f r) next := by
  rintro ⟨t, p⟩ rfl same
  have running := (Move.failed due .noMemory).running
  rcases answered : (channel.signal sig.code value).effect t with ⟨e | r, u⟩
  · rw [effect_bind_of_error (effect_signal sig running answered)]
    exact ⟨⟨_, .call (.failed due e) answered (.done _)⟩, same, fun _ given => (nomatch given)⟩
  · rw [effect_bind_of_ok (effect_signal sig running answered),
      effect_bind_of_ok (effect_enter _)]
    obtain ⟨⟨xs, path⟩, same, leads⟩ := rest r (u, { p with phase := p.phase.next r }) rfl same
    exact ⟨⟨_, .call (.answered due r) answered path⟩, same, leads⟩

theorem leads_signal_last {sig : Signal} {value : Int} {last : Phase}
    (due : b.signals[phase.rank]? = some (sig.code, value)) (steady : ∀ r, phase.next r = last) :
    Leads channel b phase (signal channel sig value >>= fun _ => enter last) fun _ =>
      (· = last) := by
  have leads : Leads channel b phase (signal channel sig value >>= fun r => do
      enter (phase.next r)
      return ()) fun _ => (· = last) := leads_signal due fun r => leads_pure (steady r)
  simpa only [steady, bind_pure_unit] using leads

theorem leads_show {sig : Signal} (running : phase.stage ≠ .halted)
    (display : Event.isDisplay sig.code = true) (value : Int) :
    Leads channel b phase (signal channel sig value >>= fun _ => Pure.pure ()) fun _ _ => True := by
  rintro ⟨t, p⟩ rfl same
  rcases answered : (channel.signal sig.code value).effect t with ⟨e | r, u⟩
  · rw [effect_bind_of_error (effect_signal sig running answered)]
    exact ⟨⟨_, .call (.shown running display value _) answered (.done _)⟩, same,
      fun _ _ => trivial⟩
  · rw [effect_bind_of_ok (effect_signal sig running answered)]
    exact ⟨⟨_, .call (.shown running display value _) answered (.done _)⟩, same,
      fun _ _ => trivial⟩

theorem leads_expect {stage : Stage} (here : phase.stage = stage) :
    Leads channel b phase (expect stage) fun _ => (· = phase) := by
  subst here
  refine leads_of_keeps fun _ s still => ?_
  rw [effect_expect (congrArg Phase.stage still.2.1)]
  exact still

/-! The methods, each in the phase where it is taken. -/

theorem leads_publishKey :
    Leads channel b .idle (publishKey channel) fun _ => (· = .keyPublished) :=
  (leads_expect rfl).bind_still fun _ => leads_get_bind fun _ _ same =>
    leads_signal_last (Buffers.signals_eq same ▸ rfl) fun _ => rfl

theorem leads_publishNonce :
    Leads channel b .keyPublished (publishNonce channel) fun _ => (· = .noncePublished) :=
  (leads_expect rfl).bind_still fun _ => leads_get_bind fun _ _ same =>
    leads_signal_last (Buffers.signals_eq same ▸ rfl) fun _ => rfl

theorem leads_requestIterations :
    Leads channel b .noncePublished (requestIterations channel)
      fun count => (· = .iterationsKnown count) :=
  (leads_expect rfl).bind_still fun _ => leads_signal rfl fun _ =>
    (leads_of_keeps fun _ => keeps_liftM _).bind_still fun _ =>
      (leads_of_keeps fun _ => keeps_note _).bind_still fun _ => leads_pure rfl

theorem leads_expectIterations_bind {count : Int} {f : Int → Action (Running π) β}
    (rest : Leads channel b (.iterationsKnown count) (f count) next) :
    Leads channel b (.iterationsKnown count) (expectIterations >>= f) next := by
  intro s here same
  have known : expectIterations.effect s = (.ok count, s) := by
    rw [expectIterations, effect_get_bind, here]
    rfl
  rw [effect_bind_of_ok known]
  exact rest s here same

theorem leads_generate (count : Int) :
    Leads channel b (.iterationsKnown count) (generate channel)
      fun _ => (· = .outputAnnounced count) :=
  leads_expectIterations_bind <| leads_get_bind fun s _ same =>
    have due : b.signals[(Phase.iterationsKnown count).rank]? =
        some (Signal.outputAddress.code, s.2.buffers.output) := Buffers.signals_eq same ▸ rfl
    (leads_of_keeps fun _ => keeps_liftM _).bind_still fun counter =>
      (leads_of_keeps fun _ =>
        keeps_inBuffers (Buffers.keeps_addresses_loadState counter)).bind_still fun state =>
          (leads_of_keeps fun _ => keeps_note _).bind_still fun _ => leads_signal due fun _ =>
            (leads_of_keeps fun _ => keeps_loop state count).bind_still fun _ =>
              leads_signal due fun _ => leads_pure rfl

theorem leads_halt (count : Int) :
    Leads channel b (.outputAnnounced count) (halt channel) fun _ _ => True := by
  rintro ⟨t, p⟩ here same
  rcases ended : channel.halt.effect t with ⟨r, u⟩
  have move : Move b p.phase (.halt r) (.halted count) := here ▸ .halted count r
  rw [effect_halt here ended]
  exact ⟨⟨_, .call move ended (.done _)⟩, same, fun _ _ => trivial⟩

theorem leads_run : Leads channel b .idle (run channel) fun _ _ => True := by
  refine leads_publishKey.bind ?_
  rintro _ _ rfl
  refine leads_publishNonce.bind ?_
  rintro _ _ rfl
  refine leads_requestIterations.bind ?_
  rintro count _ rfl
  refine (leads_generate count).bind ?_
  rintro _ _ rfl
  exact (leads_halt count).bind fun _ _ _ => leads_pure trivial

end Program

end Keystream
