import Keystream.Heap.Basic
import Mathlib.Data.Int.DivMod
import Mathlib.Data.List.Pairwise
import Mathlib.Tactic.Linarith
/-!
Rows of runs and the ledgers that track them. A tracked row has runs of positive length with no two
free ones side by side, and its ledger has one entry for each used run, in the order of the row.
Placing an allocation and releasing one keep a row tracked.
-/
namespace Keystream

namespace Heap

theorem blocksFor_pos (block size : Int) : 0 < blocksFor block size := by
  unfold blocksFor
  omega

theorem le_mul_blocksFor {block : Int} (positive : 0 < block) (size : Int) :
    size ≤ block * blocksFor block size := by
  have parts := Int.mul_fdiv_add_fmod (size + block - 1) block
  have rest := Int.fmod_lt_of_pos (size + block - 1) positive
  have larger : (size + block - 1).fdiv block ≤ blocksFor block size := le_max_right ..
  have := mul_le_mul_of_nonneg_left larger positive.le
  omega

end Heap

namespace Run

open Heap

/-- A row over the blocks from `pos` to `stop`, tracked by a ledger of what was asked for. -/
inductive Tracked (block : Int) : Int → Int → List Run → Ledger → Prop
  | nil (pos : Int) : Tracked block pos pos [] []
  | free {pos stop n : Int} {runs : List Run} {ledger : Ledger} (positive : 0 < n)
      (next : ∀ run ∈ runs.head?, run.used = true)
      (rest : Tracked block (pos + n) stop runs ledger) :
      Tracked block pos stop (⟨n, false⟩ :: runs) ledger
  | used {pos stop size : Int} {runs : List Run} {ledger : Ledger}
      (rest : Tracked block (pos + blocksFor block size) stop runs ledger) :
      Tracked block pos stop (⟨blocksFor block size, true⟩ :: runs) ((block * pos, size) :: ledger)

variable {block pos stop : Int} {runs : List Run} {ledger : Ledger}

namespace Tracked

theorem le (t : Tracked block pos stop runs ledger) : pos ≤ stop := by
  induction t with
  | nil => exact Int.le_refl _
  | free positive _ _ ih => omega
  | @used pos stop size _ _ _ ih =>
    have := blocksFor_pos block size
    omega

theorem bounds (t : Tracked block pos stop runs ledger) (positive : 0 < block)
    {entry : Int × Int} (member : entry ∈ ledger) :
    block * pos ≤ entry.1 ∧ entry.1 + block * blocksFor block entry.2 ≤ block * stop := by
  induction t with
  | nil => cases member
  | @free pos stop n _ _ some _ _ ih =>
    have := mul_pos positive some
    have := ih member
    constructor <;> linarith
  | @used pos stop size runs ledger rest ih =>
    have := mul_pos positive (blocksFor_pos block size)
    cases member with
    | head =>
      have := mul_le_mul_of_nonneg_left rest.le positive.le
      constructor <;> linarith
    | tail _ member =>
      have := ih member
      constructor <;> linarith

theorem exists_block (t : Tracked block pos stop runs ledger) {addr size : Int}
    (member : (addr, size) ∈ ledger) : ∃ k, addr = block * k := by
  induction t with
  | nil => cases member
  | free _ _ _ ih => exact ih member
  | used _ ih =>
    rcases List.mem_cons.1 member with same | member
    · exact ⟨_, (Prod.mk.inj same).1⟩
    · exact ih member

theorem pairwise (t : Tracked block pos stop runs ledger) (positive : 0 < block) :
    ledger.Pairwise fun a b => a.1 + block * blocksFor block a.2 ≤ b.1 := by
  induction t with
  | nil => exact List.Pairwise.nil
  | free _ _ _ ih => exact ih
  | @used pos stop size runs ledger rest ih =>
    refine List.Pairwise.cons ?_ ih
    intro entry member
    have := (rest.bounds positive member).1
    linarith

end Tracked

theorem enter_of_lt {addr : Int} (size : Int) (below : ∀ entry ∈ ledger, addr < entry.1) :
    ledger.enter addr size = (addr, size) :: ledger := by
  cases ledger with
  | nil => rfl
  | cons entry rest => exact if_pos (below entry List.mem_cons_self)

theorem enter_cons_of_lt {addr first : Int} (size n : Int) (above : first < addr) :
    Ledger.enter addr size ((first, n) :: ledger) = (first, n) :: ledger.enter addr size := by
  simp only [Ledger.enter]
  rw [if_neg (by omega), if_neg (by omega)]

theorem head?_of_place {align want pos found : Int} {runs runs' : List Run}
    (next : ∀ run ∈ runs.head?, run.used = true)
    (h : place align want pos runs = some (found, runs')) :
    ∀ run ∈ runs'.head?, run.used = true := by
  cases runs with
  | nil => cases h
  | cons run rest =>
    have used : run.used = true := next run rfl
    simp only [place, used, Bool.not_true, Bool.false_and, Bool.false_eq_true, if_false,
      Option.map_eq_some_iff] at h
    obtain ⟨_, _, same⟩ := h
    cases same
    exact next

theorem Tracked.split {n pad size : Int} (enough : 0 ≤ pad)
    (fits : blocksFor block size + pad ≤ n) (next : ∀ run ∈ runs.head?, run.used = true)
    (rest : Tracked block (pos + n) stop runs ledger) :
    Tracked block pos stop (Run.split n pad (blocksFor block size) ++ runs)
      ((block * (pos + pad), size) :: ledger) := by
  have behind : Tracked block (pos + pad + blocksFor block size) stop
      ((if blocksFor block size + pad < n then [⟨n - blocksFor block size - pad, false⟩] else []) ++
        runs) ledger := by
    split
    · refine .free (by omega) next ?_
      have same :
          pos + pad + blocksFor block size + (n - blocksFor block size - pad) = pos + n := by
        omega
      rwa [same]
    · have same : pos + pad + blocksFor block size = pos + n := by omega
      rwa [same]
  unfold Run.split
  split
  · next none =>
    subst none
    simp only [add_zero] at behind ⊢
    exact .used behind
  · exact .free (by omega) (by simp) (.used behind)

/-- Placing an allocation puts one entry into the ledger, and the row is tracked as before. -/
theorem Tracked.place {align size found : Int} {runs' : List Run}
    (t : Tracked block pos stop runs ledger) (positive : 0 < block) (step : 0 < align)
    (h : Run.place align (blocksFor block size) pos runs = some (found, runs')) :
    Tracked block pos stop runs' (ledger.enter (block * found) size) ∧
      ∃ before after, ledger = before ++ after ∧
        ledger.enter (block * found) size = before ++ (block * found, size) :: after := by
  induction t generalizing runs' with
  | nil => cases h
  | @free pos stop n runs ledger some next rest ih =>
    have pad := Int.fmod_nonneg_of_pos (-pos) step
    simp only [Run.place, Bool.not_false, Bool.true_and, decide_eq_true_eq] at h
    split at h
    · next fits =>
      cases h
      have front : ledger.enter (block * (pos + (-pos).fmod align)) size =
          (block * (pos + (-pos).fmod align), size) :: ledger := by
        refine enter_of_lt size fun entry member => ?_
        have low := (rest.bounds positive member).1
        have := mul_pos positive (blocksFor_pos block size)
        have := mul_le_mul_of_nonneg_left fits positive.le
        linarith
      rw [front]
      exact ⟨.split pad fits next rest, [], ledger, rfl, rfl⟩
    · obtain ⟨⟨_, runs'⟩, placed, same⟩ := Option.map_eq_some_iff.1 h
      cases same
      obtain ⟨tracked, parts⟩ := ih placed
      exact ⟨.free some (head?_of_place next placed) tracked, parts⟩
  | @used pos stop n runs ledger rest ih =>
    simp only [Run.place, Bool.not_true, Bool.false_and, Bool.false_eq_true, if_false] at h
    obtain ⟨⟨found, runs'⟩, placed, same⟩ := Option.map_eq_some_iff.1 h
    cases same
    obtain ⟨tracked, before, after, whole, entered⟩ := ih placed
    have above : block * pos < block * found := by
      have := mul_pos positive (blocksFor_pos block n)
      have member : (block * found, size) ∈ ledger.enter (block * found) size := by
        rw [entered]
        simp
      have := (tracked.bounds positive member).1
      linarith
    rw [enter_cons_of_lt size n above]
    refine ⟨.used tracked, (block * pos, n) :: before, after, ?_, ?_⟩
    · rw [whole, List.cons_append]
    · rw [entered, List.cons_append]

theorem release_of_neg {distance : Int} (before : distance < 0) (runs : List Run) :
    release distance runs = .error .notAllocated := by
  cases runs with
  | nil => rfl
  | cons run rest =>
    unfold release
    rw [if_pos before]
    rfl

theorem release_zero (run : Run) (rest : List Run) :
    release 0 (run :: rest) =
      if run.used then .ok (join run.blocks rest) else .error .alreadyFree := by
  unfold release
  split <;> rfl

theorem release_of_pos {distance : Int} (behind : 0 < distance) (run : Run) (rest : List Run) :
    release distance (run :: rest) =
      (release (distance - run.blocks) rest).map fun rest =>
        if distance = run.blocks ∧ run.used = false then join run.blocks rest else run :: rest := by
  rw [release, if_neg (by omega), if_neg (by omega)]
  cases release (distance - run.blocks) rest with
  | error e => rfl
  | ok rest =>
    simp only [Except.map]
    split <;> rfl

theorem release_cons_eq_ok {distance : Int} {run : Run} {rest runs' : List Run}
    (behind : 0 < distance) (h : release distance (run :: rest) = .ok runs') :
    ∃ rest', release (distance - run.blocks) rest = .ok rest' ∧
      runs' = if distance = run.blocks ∧ run.used = false then join run.blocks rest'
        else run :: rest' := by
  rw [release_of_pos behind] at h
  cases released : release (distance - run.blocks) rest with
  | error e =>
    rw [released] at h
    cases h
  | ok rest' =>
    rw [released] at h
    exact ⟨rest', rfl, (Except.ok.inj h).symm⟩

theorem pos_of_release_eq_ok {distance : Int} {run : Run} {rest runs' : List Run}
    (h : release distance (run :: rest) = .ok runs') :
    (distance = 0 ∧ run.used = true ∧ runs' = join run.blocks rest) ∨ 0 < distance := by
  rcases lt_trichotomy distance 0 with before | here | behind
  · rw [release_of_neg before] at h
    cases h
  · rw [here, release_zero] at h
    split at h
    · next used => exact .inl ⟨here, used, (Except.ok.inj h).symm⟩
    · cases h
  · exact .inr behind

theorem head?_of_release {distance : Int} {runs runs' : List Run} (behind : 0 < distance)
    (next : ∀ run ∈ runs.head?, run.used = true) (h : release distance runs = .ok runs') :
    ∀ run ∈ runs'.head?, run.used = true := by
  cases runs with
  | nil => cases h
  | cons run rest =>
    have used : run.used = true := next run rfl
    obtain ⟨rest', _, same⟩ := release_cons_eq_ok behind h
    rw [same, if_neg (by simp [used])]
    exact next

theorem Tracked.join {n : Int} (some : 0 < n) (t : Tracked block (pos + n) stop runs ledger) :
    Tracked block pos stop (Run.join n runs) ledger := by
  generalize first : pos + n = start at t
  cases t with
  | nil =>
    subst first
    exact .free some (by simp) (.nil _)
  | @free _ _ m runs ledger positive next rest =>
    have larger : 0 < n + m := by omega
    have same : pos + (n + m) = start + m := by omega
    exact .free larger next (by rwa [same])
  | @used _ _ size runs ledger rest =>
    subst first
    exact .free some (by simp) (.used rest)

/-- A release takes one entry out of the ledger, and the row is tracked as before. -/
theorem Tracked.release {distance : Int} {runs' : List Run}
    (t : Tracked block pos stop runs ledger) (positive : 0 < block)
    (h : Run.release distance runs = .ok runs') :
    ∃ before size after, ledger = before ++ (block * (pos + distance), size) :: after ∧
      ledger.strike? (block * (pos + distance)) = some (before ++ after) ∧
      Tracked block pos stop runs' (before ++ after) := by
  induction t generalizing distance runs' with
  | nil => cases h
  | @free pos stop n runs ledger some next rest ih =>
    rcases pos_of_release_eq_ok h with ⟨_, used, _⟩ | behind
    · cases used
    obtain ⟨rest', released, same⟩ := release_cons_eq_ok behind h
    have place : pos + n + (distance - n) = pos + distance := by omega
    obtain ⟨before, size, after, whole, struck, tracked⟩ := ih released
    rw [place] at whole struck
    refine ⟨before, size, after, whole, struck, ?_⟩
    subst same
    split
    · exact .join some tracked
    · next apart =>
      have apart : distance ≠ n := fun here => apart ⟨here, rfl⟩
      have inside : 0 < distance - n := by
        by_contra outside
        rw [release_of_neg (show distance - n < 0 by omega)] at released
        cases released
      exact .free some (head?_of_release inside next released) tracked
  | @used pos stop n runs ledger rest ih =>
    rcases pos_of_release_eq_ok h with ⟨here, _, same⟩ | behind
    · subst here same
      rw [add_zero]
      exact ⟨[], n, ledger, rfl, if_pos rfl, .join (blocksFor_pos block n) rest⟩
    obtain ⟨rest', released, same⟩ := release_cons_eq_ok behind h
    have place : pos + blocksFor block n + (distance - blocksFor block n) = pos + distance := by
      omega
    obtain ⟨before, size, after, whole, struck, tracked⟩ := ih released
    rw [place] at whole struck
    have other : ¬block * (pos + distance) = block * pos := by
      have := mul_pos positive behind
      intro same
      linarith
    refine ⟨(block * pos, n) :: before, size, after, ?_, ?_, ?_⟩
    · rw [whole, List.cons_append]
    · rw [Ledger.strike?, if_neg other, struck]
      rfl
    · rw [same, if_neg (by simp)]
      exact .used tracked

theorem Tracked.release_of_mem {distance size : Int} (t : Tracked block pos stop runs ledger)
    (positive : 0 < block) (member : (block * (pos + distance), size) ∈ ledger) :
    ∃ runs', Run.release distance runs = .ok runs' := by
  induction t generalizing distance with
  | nil => cases member
  | @free pos stop n runs ledger some next rest ih =>
    have low := (rest.bounds positive member).1
    have inside : n ≤ distance := by
      have := le_of_mul_le_mul_left low positive
      omega
    rw [show pos + distance = pos + n + (distance - n) by omega] at member
    obtain ⟨rest', released⟩ := ih member
    rw [release_of_pos (by omega), released]
    exact ⟨_, rfl⟩
  | @used pos stop n runs ledger rest ih =>
    have some := blocksFor_pos block n
    rcases List.mem_cons.1 member with same | member
    · have here : distance = 0 := by
        have := mul_left_cancel₀ positive.ne' (Prod.mk.inj same).1
        omega
      subst here
      rw [release_zero]
      exact ⟨_, rfl⟩
    · have low := (rest.bounds positive member).1
      have inside : blocksFor block n ≤ distance := by
        have := le_of_mul_le_mul_left low positive
        omega
      rw [show pos + distance = pos + blocksFor block n + (distance - blocksFor block n) by omega]
        at member
      obtain ⟨rest', released⟩ := ih member
      rw [release_of_pos (by omega), released]
      exact ⟨_, rfl⟩

end Run

end Keystream
