import Keystream.Proofs.Heap.Coherent
import Mathlib.Data.List.Perm.Basic
/-!
Canonical heaps: the space and what is live in it decide the runs, because no two free ones stand
side by side. So a heap has no memory of the order in which blocks were given back, nor of blocks
that were taken and given back.
-/
namespace Keystream

namespace Run.Tracked

variable {block pos stop : Int} {runs others : List Run} {ledger : Ledger}

theorem first_block (t : Tracked block pos stop runs ledger)
    (first : ∀ run ∈ runs.head?, run.used = true) :
    block * pos = (ledger.head?.map Prod.fst).getD (block * stop) := by
  cases t with
  | nil => rfl
  | free => cases first _ rfl
  | used => rfl

theorem false_of_free {n size : Int}
    (t : Tracked block (pos + n) stop runs ((block * pos, size) :: ledger)) (positive : 0 < block)
    (some : 0 < n) : False := by
  have low : block * (pos + n) ≤ block * pos := (t.bounds positive List.mem_cons_self).1
  have := mul_pos positive some
  linarith

theorem unique (t : Tracked block pos stop runs ledger) (positive : 0 < block)
    (other : Tracked block pos stop others ledger) : others = runs := by
  induction t generalizing others with
  | nil =>
    cases other with
    | nil => rfl
    | free some _ rest =>
      have := rest.le
      omega
  | @free pos stop n runs ledger some next rest ih =>
    cases other with
    | nil =>
      have := rest.le
      omega
    | @free _ _ m others _ some' next' rest' =>
      have same := (rest.first_block next).trans (rest'.first_block next').symm
      have same : n = m := by
        have := mul_left_cancel₀ positive.ne' same
        omega
      subst same
      rw [ih rest']
    | used => exact (rest.false_of_free positive some).elim
  | used rest ih =>
    cases other with
    | free some _ rest' => exact (rest'.false_of_free positive some).elim
    | used rest' => rw [ih rest']

end Run.Tracked

namespace Heap

open Keystream.Action

variable {h g f : Heap}

theorem WellFormed.ordered (w : h.WellFormed) : h.sizes.Pairwise fun a b => a.1 < b.1 :=
  (w.tracked.pairwise w.positive).imp fun {a b} behind => by
    have := mul_pos w.positive (blocksFor_pos h.block a.2)
    omega

theorem SameSpace.symm (s : SameSpace h g) : SameSpace g h :=
  ⟨s.start.symm, s.block.symm, s.count.symm⟩

/-- What is live over some space decides the heap. -/
theorem WellFormed.eq_of_sizes (w : h.WellFormed) (w' : g.WellFormed) (space : SameSpace h g)
    (same : ∀ entry, entry ∈ g.sizes ↔ entry ∈ h.sizes) : g = h := by
  have sizes : g.sizes = h.sizes := by
    have distinct {f : Heap} (w : f.WellFormed) : f.sizes.Nodup :=
      w.ordered.imp fun {a b} below equal => (equal ▸ below).false
    refine ((List.perm_ext_iff_of_nodup (distinct w') (distinct w)).2 same).eq_of_pairwise
      (fun a b _ _ below above => ?_) w'.ordered w.ordered
    exact absurd below above.asymm
  have tracked := w'.tracked
  rw [sizes, Heap.first, space.start, space.block, space.count] at tracked
  have runs : g.runs = h.runs := w.tracked.unique w.positive tracked
  obtain ⟨start, block, count⟩ := space
  cases g
  cases h
  simp only at start block count runs sizes
  rw [start, block, count, runs, sizes]

theorem WellFormed.eq_of_live (w : h.WellFormed) (w' : g.WellFormed) (space : SameSpace h g)
    (same : ∀ addr, g.sizes.size? addr = h.sizes.size? addr) : g = h :=
  w.eq_of_sizes w' space fun (addr, size) => by
    rw [← w'.size?_eq_some_iff, same, w.size?_eq_some_iff]

theorem WellFormed.size?_eq_none_iff (w : h.WellFormed) {addr : Int} :
    h.sizes.size? addr = none ↔ ∀ size, (addr, size) ∉ h.sizes := by
  simp only [Option.eq_none_iff_forall_ne_some, ne_eq, w.size?_eq_some_iff]

theorem WellFormed.fresh {align size addr : Int} (w : h.WellFormed)
    (allocated : h.allocate align size = .ok (addr, g)) : h.sizes.size? addr = none :=
  w.size?_eq_none_iff.2 fun _ live =>
    ((w.allocate allocated).2.2.2 _ live).ne w.positive rfl

theorem WellFormed.size?_allocate {align size addr : Int} (w : h.WellFormed)
    (allocated : h.allocate align size = .ok (addr, g)) (other : Int) :
    g.sizes.size? other = if other = addr then some size else h.sizes.size? other := by
  obtain ⟨_, _, _, _, _, rfl, rfl⟩ := allocate_eq_ok w.positive allocated
  exact Ledger.size?_enter ..

theorem WellFormed.size?_release {addr : Int} (w : h.WellFormed)
    (released : h.release addr = .ok g) (other : Int) :
    g.sizes.size? other = if other = addr then none else h.sizes.size? other := by
  obtain ⟨w', _, left⟩ := w.release released
  split
  · next same =>
    exact w'.size?_eq_none_iff.2 fun size live => ((left _).1 live).2 same
  · next ne =>
    refine Option.ext fun size => ?_
    rw [w'.size?_eq_some_iff, w.size?_eq_some_iff, left]
    exact and_iff_left ne

theorem WellFormed.release_restores {align size addr : Int} (w : h.WellFormed)
    (allocated : h.allocate align size = .ok (addr, g)) (w' : f.WellFormed)
    (space : SameSpace g f) (same : ∀ a, f.sizes.size? a = g.sizes.size? a) :
    f.release addr = .ok h := by
  have lent := w.size?_allocate allocated
  have live : (addr, size) ∈ f.sizes := by
    rw [← w'.size?_eq_some_iff, same, lent, if_pos rfl]
  obtain ⟨e, released⟩ := w'.exists_release live
  obtain ⟨wellFormed, space', _⟩ := w'.release released
  rw [released, w.eq_of_live wellFormed (((w.allocate allocated).2.1.trans space).trans space')]
  intro a
  rw [w'.size?_release released, same, lent]
  split
  · next same => rw [same, w.fresh allocated]
  · rfl

def releaseAll (h : Heap) (addrs : List Int) : Except Error Heap := addrs.foldlM release h

theorem WellFormed.exists_releaseAll {addrs : List Int} (w : h.WellFormed) (distinct : addrs.Nodup)
    (live : ∀ a ∈ addrs, ∃ size, h.sizes.size? a = some size) :
    ∃ g, h.releaseAll addrs = .ok g ∧ g.WellFormed ∧ SameSpace h g ∧
      ∀ a, g.sizes.size? a = if a ∈ addrs then none else h.sizes.size? a := by
  induction addrs generalizing h with
  | nil => exact ⟨h, rfl, w, ⟨rfl, rfl, rfl⟩, fun a => by rw [if_neg List.not_mem_nil]⟩
  | cons addr addrs ih =>
    obtain ⟨other, distinct⟩ := List.nodup_cons.1 distinct
    obtain ⟨⟨size, first⟩, live⟩ := List.forall_mem_cons.1 live
    obtain ⟨f, released⟩ := w.exists_release (w.size?_eq_some_iff.1 first)
    obtain ⟨wellFormed, space, _⟩ := w.release released
    have left := w.size?_release released
    have stay : ∀ a ∈ addrs, ∃ size, f.sizes.size? a = some size := by
      intro a member
      have ne : a ≠ addr := fun same => other (same ▸ member)
      rw [left, if_neg ne]
      exact live a member
    obtain ⟨g, done, wellFormed, space', rest⟩ := ih wellFormed distinct stay
    refine ⟨g, ?_, wellFormed, space.trans space', fun a => ?_⟩
    · rw [releaseAll, List.foldlM_cons, released]
      exact done
    · rw [rest, left]
      grind

/-! Histories, and those among them that give back what they take. -/

def History.leaves (history : History) (h : Heap) : Heap := (history.perform.effect h).2

theorem effect_releaseAt (addr : Int) (h : Heap) :
    (releaseAt addr).effect h =
      match h.release addr with
      | .ok g => (.ok (), g)
      | .error e => (.error e, h) := by
  rw [releaseAt, effect_step]
  cases h.release addr <;> rfl

theorem effect_guarded {α : Type} (size : Int) (body : Int → Action Heap α) (h : Heap) :
    (guarded size body).effect h =
      match h.allocateBlocks size with
      | .ok (addr, g) => ((body addr).ensuring (releaseAt addr)).effect g
      | .error e => (.error e, h) := by
  rw [guarded, effect_bind, effect_step]
  cases h.allocateBlocks size <;> rfl

theorem History.perform_never_fails (history : History) (h : Heap) :
    (history.perform.effect h).1 = .ok () := by
  induction history generalizing h with
  | done => rfl
  | call c rest ih =>
    rw [perform, effect_bind_of_ok (effect_attempt ..)]
    exact ih _
  | guarded size inside failure rest _ ih =>
    cases failure <;>
    · rw [perform, effect_bind_of_ok (effect_attempt ..)]
      exact ih _

theorem History.effect_perform (history : History) (h : Heap) :
    history.perform.effect h = (.ok (), history.leaves h) :=
  Prod.ext (history.perform_never_fails h) rfl

theorem History.leaves_call (c : Call) (rest : History) (h : Heap) :
    (History.call c rest).leaves h = rest.leaves (c.perform.effect h).2 := by
  rw [leaves, perform, effect_bind_of_ok (effect_attempt ..)]
  rfl

theorem History.leaves_guarded (size : Int) (inside : History) (failure : Option Error)
    (rest : History) (h : Heap) :
    (History.guarded size inside failure rest).leaves h =
      match h.allocateBlocks size with
      | .ok (addr, g) => rest.leaves ((releaseAt addr).effect (inside.leaves g)).2
      | .error _ => rest.leaves h := by
  cases failure <;>
  · rw [leaves, perform, effect_bind_of_ok (effect_attempt ..), effect_guarded]
    rcases h.allocateBlocks size with e | ⟨addr, g⟩
    · rfl
    simp only [effect_ensuring, effect_bind, effect_perform, effect_pure, effect_throw]
    rcases (releaseAt addr).effect (inside.leaves g) with ⟨_ | _, t⟩ <;> rfl

theorem WellFormed.leaves (w : h.WellFormed) (history : History) :
    (history.leaves h).WellFormed ∧ SameSpace h (history.leaves h) :=
  keeps_history history h ⟨w, rfl, rfl, rfl⟩

/-- Whether a history leaves live what it found live, and nothing else. -/
def KeepsLive (h : Heap) (history : History) : Prop :=
  ∀ addr, (history.leaves h).sizes.size? addr = h.sizes.size? addr

def owed (pending : List Int) : Except Error (Int × Heap) → List Int
  | .ok (addr, _) => addr :: pending
  | .error _ => pending

/-- The addresses that are to be given back after a call, if some were `pending` before. There are
none to tell if a block is given back that is not among them. -/
def Call.pending? (h : Heap) (pending : List Int) : Call → Option (List Int)
  | allocate align size => some (owed pending (h.allocate align size))
  | allocateBlocks size => some (owed pending (h.allocateBlocks size))
  | release addr =>
    match h.release addr with
    | .ok _ => if addr ∈ pending then some (pending.erase addr) else none
    | .error _ => some pending

def History.pending? : History → Heap → List Int → Option (List Int)
  | done, _, pending => some pending
  | call c rest, h, pending => do
    rest.pending? (c.perform.effect h).2 (← c.pending? h pending)
  | guarded size inside _ rest, h, pending =>
    match h.allocateBlocks size with
    | .error _ => rest.pending? h pending
    | .ok (addr, g) => do
      let pending ← inside.pending? g (addr :: pending)
      let pending ← (Call.release addr).pending? (inside.leaves g) pending
      rest.pending? ((releaseAt addr).effect (inside.leaves g)).2 pending

/-- Whether a history gives back each block that it allocates, and none besides. -/
def Balanced (h : Heap) (history : History) : Prop := history.pending? h [] = some []

instance (h : Heap) (history : History) : Decidable (h.Balanced history) :=
  inferInstanceAs (Decidable (_ = _))

/-- Whether `h` holds what `before` held, and beside it the blocks that are pending. -/
structure Owes (before h : Heap) (pending : List Int) : Prop where
  distinct : pending.Nodup
  live : ∀ a ∈ pending, h.sizes.size? a ≠ none
  rest : ∀ a, before.sizes.size? a = if a ∈ pending then none else h.sizes.size? a

section

variable {before : Heap} {pending left : List Int}

theorem Owes.allocate (o : Owes before h pending) (w : h.WellFormed) (align size : Int) :
    Owes before ((Action.step (·.allocate align size)).effect h).2
      (owed pending (h.allocate align size)) := by
  rw [effect_step]
  rcases allocated : h.allocate align size with e | ⟨addr, g⟩
  · exact o
  have fresh := w.fresh allocated
  have lent := w.size?_allocate allocated
  refine ⟨List.nodup_cons.2 ⟨fun member => o.live _ member fresh, o.distinct⟩, ?_, ?_⟩
  · intro a member
    have := o.live a
    rw [owed, List.mem_cons] at member
    simp only [lent]
    grind
  · intro a
    have := o.rest a
    simp only [lent, owed, List.mem_cons]
    grind

theorem Owes.release {addr : Int} (o : Owes before h pending) (w : h.WellFormed)
    (done : (Call.release addr).pending? h pending = some left) :
    Owes before ((releaseAt addr).effect h).2 left := by
  rw [effect_releaseAt]
  rw [Call.pending?] at done
  rcases released : h.release addr with e | g
  · rw [released] at done
    cases done
    exact o
  rw [released] at done
  simp only [Option.ite_none_right_eq_some] at done
  obtain ⟨member, done⟩ := done
  cases done
  have gone := w.size?_release released
  refine ⟨o.distinct.erase _, ?_, ?_⟩
  · intro a member
    have := o.live a
    rw [o.distinct.mem_erase_iff] at member
    simp only [gone]
    grind
  · intro a
    have := o.rest a
    simp only [gone, o.distinct.mem_erase_iff]
    grind

theorem Owes.perform {c : Call} (o : Owes before h pending) (w : h.WellFormed)
    (done : c.pending? h pending = some left) : Owes before (c.perform.effect h).2 left := by
  cases c with
  | allocate align size =>
    cases done
    rw [Call.perform, effect_bind_pure]
    exact o.allocate w align size
  | allocateBlocks size =>
    cases done
    rw [Call.perform, effect_bind_pure]
    have := o.allocate w h.block size
    rw [effect_step] at this ⊢
    exact this
  | release addr => exact o.release w done

theorem Owes.leaves {history : History} (o : Owes before h pending) (w : h.WellFormed)
    (done : history.pending? h pending = some left) : Owes before (history.leaves h) left := by
  induction history generalizing h pending left with
  | done =>
    cases done
    exact o
  | call c rest ih =>
    obtain ⟨between, first, done⟩ := Option.bind_eq_some_iff.1 done
    rw [History.leaves_call]
    exact ih (o.perform w first) (keeps_perform c h ⟨w, rfl, rfl, rfl⟩).1 done
  | guarded size inside failure rest ihInside ih =>
    rw [History.leaves_guarded]
    rw [History.pending?] at done
    rcases allocated : h.allocateBlocks size with e | ⟨addr, g⟩
    · rw [allocated] at done
      exact ih o w done
    rw [allocated] at done
    obtain ⟨during, first, done⟩ := Option.bind_eq_some_iff.1 done
    obtain ⟨between, second, done⟩ := Option.bind_eq_some_iff.1 done
    have lent := o.allocate w h.block size
    have wellFormed := (w.allocate allocated).1
    rw [effect_step, show h.allocate h.block size = .ok (addr, g) from allocated] at lent
    have used := ihInside lent wellFormed first
    have wellFormed := (wellFormed.leaves inside).1
    exact ih (used.release wellFormed second)
      (keeps_perform (.release addr) _ ⟨wellFormed, rfl, rfl, rfl⟩).1 done

/-- Once the pending blocks are given back, in whatever order, all is as before. -/
theorem Owes.releaseAll {addrs : List Int} (o : Owes before h pending) (w : before.WellFormed)
    (w' : h.WellFormed) (space : SameSpace before h) (perm : addrs.Perm pending) :
    h.releaseAll addrs = .ok before := by
  obtain ⟨g, done, wellFormed, space', left⟩ := w'.exists_releaseAll (perm.nodup_iff.2 o.distinct)
    fun a member => Option.ne_none_iff_exists'.1 (o.live a (perm.mem_iff.1 member))
  have same : g = before := w.eq_of_live wellFormed (space.trans space') fun a => by
    rw [left, o.rest]
    simp only [perm.mem_iff]
  rw [done, same]

end

theorem Balanced.keepsLive {history : History} (balanced : h.Balanced history)
    (w : h.WellFormed) : h.KeepsLive history := by
  have start : Owes h h [] := ⟨List.nodup_nil, by simp, by simp⟩
  exact fun addr => by simpa using ((start.leaves w balanced).rest addr).symm

theorem WellFormed.releaseAll_perm {addrs others : List Int} (w : h.WellFormed)
    (perm : addrs.Perm others) (distinct : addrs.Nodup)
    (live : ∀ a ∈ addrs, ∃ size, h.sizes.size? a = some size) :
    ∃ g, h.releaseAll addrs = .ok g ∧ h.releaseAll others = .ok g := by
  obtain ⟨f, one, wellFormed, space, left⟩ := w.exists_releaseAll distinct live
  obtain ⟨g, other, wellFormed', space', left'⟩ :=
    w.exists_releaseAll (perm.nodup distinct) fun a member => live a (perm.mem_iff.2 member)
  have same : g = f := wellFormed.eq_of_live wellFormed' (space.symm.trans space') fun a => by
    simp only [left, left', perm.mem_iff]
  exact ⟨f, one, same ▸ other⟩

theorem WellFormed.releaseAll_live {addrs : List Int} (w : h.WellFormed) (positive : 0 < h.count)
    (distinct : addrs.Nodup) (all : ∀ a, a ∈ addrs ↔ ∃ size, h.sizes.size? a = some size) :
    ∃ g, h.releaseAll addrs = .ok g ∧ g.runs = [⟨h.count, false⟩] ∧ g.sizes = [] := by
  obtain ⟨g, done, wellFormed, space, left⟩ := w.exists_releaseAll distinct fun a => (all a).1
  have none : g.sizes = [] := by
    refine List.eq_nil_iff_forall_not_mem.2 fun (a, size) live => ?_
    have known := wellFormed.size?_eq_some_iff.2 live
    rw [left] at known
    split at known
    · cases known
    · next spared => exact spared ((all a).2 ⟨size, known⟩)
  have tracked := wellFormed.tracked
  rw [none, space.count] at tracked
  have whole : Run.Tracked g.block g.first (g.first + h.count) [⟨h.count, false⟩] [] :=
    .free positive (by simp) (.nil _)
  exact ⟨g, done, whole.unique wellFormed.positive tracked, none⟩

theorem WellFormed.effect_guarded {α : Type} {size : Int} {body : Int → Action Heap α}
    (w : h.WellFormed)
    (balanced : ∀ addr g, h.allocateBlocks size = .ok (addr, g) →
      ∃ inside : History, ((body addr).effect g).2 = inside.leaves g ∧ g.KeepsLive inside) :
    (guarded size body).effect h =
      (match h.allocateBlocks size with
        | .ok (addr, g) => ((body addr).effect g).1
        | .error e => .error e, h) := by
  rw [Heap.effect_guarded]
  rcases allocated : h.allocateBlocks size with e | ⟨addr, g⟩
  · rfl
  obtain ⟨inside, led, kept⟩ := balanced addr g allocated
  obtain ⟨wellFormed, space⟩ := (w.allocate allocated).1.leaves inside
  simp only [effect_ensuring, led, effect_releaseAt]
  rw [w.release_restores allocated wellFormed space kept]

theorem count_pos_of_create {start stop block : Int} (positive : 0 < block)
    (created : create start stop block = .ok h) : 0 < h.count := by
  have w := (wellFormed_of_create positive created).1
  have tracked := w.tracked.blocks_pos
  simp only [create, check_eq_ok] at created
  obtain ⟨_, _, _, _, same⟩ := created
  cases same
  exact tracked _ List.mem_cons_self

/-- A heap has no memory of how it came to hold what it holds: that decides its runs. So it is all
one in which order blocks are given back, and what is taken and given back leaves no trace. -/
theorem live_decides_runs {start stop block : Int} (positive : 0 < block)
    (created : create start stop block = .ok h) :
    (∀ one other : History,
      (∀ a, (one.leaves h).sizes.size? a = (other.leaves h).sizes.size? a) →
        (one.leaves h).runs = (other.leaves h).runs) ∧
    ∀ history : History, let g := history.leaves h
      (∀ addrs others : List Int, addrs.Perm others → addrs.Nodup →
        (∀ a ∈ addrs, ∃ size, g.sizes.size? a = some size) →
          ∃ f, g.releaseAll addrs = .ok f ∧ g.releaseAll others = .ok f) ∧
      (∀ align size addr lent, g.allocate align size = .ok (addr, lent) →
        (∀ between, lent.Balanced between → lent.KeepsLive between) ∧
        ∀ between, lent.KeepsLive between → (between.leaves lent).release addr = .ok g) ∧
      (∀ (α : Type) size (body : Int → Action Heap α),
        (∀ addr lent, g.allocateBlocks size = .ok (addr, lent) →
          ∃ inside : History, ((body addr).effect lent).2 = inside.leaves lent ∧
            lent.KeepsLive inside) →
          (guarded size body).effect g =
            (match g.allocateBlocks size with
              | .ok (addr, lent) => ((body addr).effect lent).1
              | .error e => .error e, g)) ∧
      ∀ addrs : List Int, addrs.Nodup →
        (∀ a, a ∈ addrs ↔ ∃ size, g.sizes.size? a = some size) →
          ∃ f, g.releaseAll addrs = .ok f ∧ f.runs = [⟨h.count, false⟩] ∧ f.sizes = [] := by
  have new := (wellFormed_of_create positive created).1
  refine ⟨fun one other same => ?_, fun history => ?_⟩
  · obtain ⟨w, space⟩ := new.leaves one
    obtain ⟨w', space'⟩ := new.leaves other
    rw [w'.eq_of_live w (space'.symm.trans space) same]
  intro g
  obtain ⟨w, space⟩ : g.WellFormed ∧ SameSpace h g := new.leaves history
  have counted : g.count = h.count := space.count
  refine ⟨fun addrs others => w.releaseAll_perm, fun align size addr lent allocated => ?_,
    fun _ size body => w.effect_guarded, fun addrs distinct all => ?_⟩
  · have lentWell := (w.allocate allocated).1
    refine ⟨fun between balanced => balanced.keepsLive lentWell, fun between kept => ?_⟩
    obtain ⟨wellFormed, space⟩ := lentWell.leaves between
    exact w.release_restores allocated wellFormed space kept
  · rw [← counted]
    exact w.releaseAll_live (counted ▸ count_pos_of_create positive created) distinct all

/-- Two ways to the same allocations, one of them over a larger block. Then a block that outlasts a
guarded one is taken and given back while a third is live. -/
theorem live_decides_runs_of_two_histories :
    let h : Heap := ⟨32, 16, 8, [⟨8, false⟩], []⟩
    let one : History := .call (.allocate 64 20) <| .call (.allocateBlocks (-5)) .done
    let other : History :=
      .call (.allocateBlocks 100) <| .call (.release 32) <| .call (.allocateBlocks (-5)) <|
        .call (.allocateBlocks 1) <| .call (.allocate 16 20) <| .call (.release 48) .done
    let between : History :=
      .guarded 5 (.call (.allocateBlocks 7) <| .call (.release 7) .done) (some .noMemory) <|
        .call (.release 128) .done
    let lent : Heap := ⟨32, 16, 8, [⟨1, true⟩, ⟨1, false⟩, ⟨2, true⟩, ⟨2, true⟩, ⟨2, false⟩],
      [(32, -5), (64, 20), (96, 17)]⟩
    (0 : Int) < 16 ∧ create 32 160 16 = .ok h ∧ (one.leaves h).sizes = (other.leaves h).sizes ∧
      (one.leaves h).runs = (other.leaves h).runs ∧
      (one.leaves h).allocate 32 17 = .ok (96, lent) ∧ lent.Balanced between ∧
      (between.leaves lent).release 96 = .ok (one.leaves h) := by
  intro h one other between lent
  have created : create 32 160 16 = .ok h := rfl
  have same : (one.leaves h).sizes = (other.leaves h).sizes := by decide +kernel
  have allocated : (one.leaves h).allocate 32 17 = .ok (96, lent) := by decide +kernel
  have balanced : lent.Balanced between := by decide +kernel
  obtain ⟨runs, after⟩ := live_decides_runs (by decide) created
  obtain ⟨_, restored, _⟩ := after one
  obtain ⟨keeps, restores⟩ := restored 32 17 96 lent allocated
  exact ⟨by decide, created, same, runs one other fun a => by rw [same], allocated, balanced,
    restores between (keeps between balanced)⟩

end Heap

end Keystream
