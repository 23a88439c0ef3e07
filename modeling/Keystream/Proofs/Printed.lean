import Keystream.Proofs.Effect
/-!
What actions print. As with what they come to, each way of putting actions together has its rule
here, and later proofs go by these rules alone.
-/
namespace Keystream.Action

variable {σ τ α β : Type} {P : σ → Prop} {Q : String → Prop}

@[simp] theorem run_printLine (line : String) (s : σ) :
    (printLine line).run s = ⟨.ok (), s, [line ++ "\n"]⟩ := rfl

@[simp] theorem run_printLines (lines : List String) (s : σ) :
    (printLines lines).run s = ⟨.ok (), s, lines.map (· ++ "\n")⟩ := rfl

theorem run_liftM_of_ok {r : Except Error α} {x : α} (done : r = .ok x) (s : σ) :
    (liftM r : Action σ α).run s = ⟨.ok x, s, []⟩ := by
  rw [done]
  rfl

theorem run_eq_of_effect {a : Action σ α} {s t : σ} {r : Except Error α}
    (done : a.effect s = (r, t)) : a.run s = ⟨r, t, (a.run s).printed⟩ := by
  cases done
  rfl

theorem run_withLocal_onSecond {a : Action τ α} {t u : τ} {x : α} {printed : List String}
    (done : a.run t = ⟨.ok x, u, printed⟩) (s : σ) :
    (withLocal t (a.onSecond : Action (σ × τ) α)).run s = ⟨.ok (x, u), s, printed⟩ := by
  unfold run at done
  simp only [run, withLocal, onSecond, done]
  rfl

/-- From states with `P` an action leads to such states, and every text it prints has `Q`. -/
def Prints (P : σ → Prop) (Q : String → Prop) (a : Action σ α) : Prop :=
  ∀ s, P s → P (a.run s).state ∧ ∀ text ∈ (a.run s).printed, Q text

def Beside (P : σ → Prop) (P' : τ → Prop) (s : σ × τ) : Prop := P s.1 ∧ P' s.2

theorem Prints.keeps {a : Action σ α} (prints : Prints P Q a) : Keeps P a :=
  fun s holds => (prints s holds).1

theorem Keeps.prints {a : Action σ α} (kept : Keeps P a) : Prints P (fun _ => True) a :=
  fun s holds => ⟨kept s holds, fun _ _ => trivial⟩

theorem prints_of_silent {a : Action σ α} (kept : ∀ s, P s → P (a.run s).state)
    (silent : ∀ s, (a.run s).printed = []) : Prints P Q a := by
  intro s holds
  refine ⟨kept s holds, ?_⟩
  simp [silent s]

theorem prints_pure (x : α) : Prints P Q (Pure.pure x : Action σ α) :=
  prints_of_silent (fun _ holds => holds) fun _ => rfl

theorem prints_throw (e : Error) : Prints P Q (throw e : Action σ α) :=
  prints_of_silent (fun _ holds => holds) fun _ => rfl

theorem prints_liftM (r : Except Error α) : Prints P Q (liftM r : Action σ α) :=
  prints_of_silent (fun _ holds => holds) fun _ => rfl

theorem prints_modify {f : σ → σ} (kept : ∀ s, P s → P (f s)) :
    Prints P Q (modify f : Action σ PUnit) :=
  prints_of_silent kept fun _ => rfl

theorem prints_set {t : σ} (holds : P t) : Prints P Q (set t : Action σ PUnit) :=
  prints_of_silent (fun _ _ => holds) fun _ => rfl

theorem prints_printLine {line : String} (has : Q (line ++ "\n")) :
    Prints P Q (printLine line : Action σ Unit) := by
  intro s holds
  refine ⟨holds, fun text member => ?_⟩
  rwa [List.mem_singleton.1 member]

theorem prints_step {f : σ → Except Error (α × σ)}
    (kept : ∀ s x t, P s → f s = .ok (x, t) → P t) : Prints P Q (step f) := by
  intro s holds
  simp only [run, step]
  split
  · next x t done => exact ⟨kept s x t holds done, List.forall_mem_nil _⟩
  · exact ⟨holds, List.forall_mem_nil _⟩

theorem Prints.bind {a : Action σ α} {f : α → Action σ β} (first : Prints P Q a)
    (rest : ∀ x, Prints P Q (f x)) : Prints P Q (a >>= f) := by
  intro s holds
  have between := first s holds
  rcases done : a.run s with ⟨e | x, t, printed⟩ <;> rw [done] at between
  · rw [run_bind_of_error done]
    exact between
  · rw [run_bind_of_ok done]
    obtain ⟨kept, has⟩ := rest x t between.1
    refine ⟨kept, fun text member => ?_⟩
    exact (List.mem_append.1 member).elim (between.2 text) (has text)

theorem prints_liftM_bind {r : Except Error α} {f : α → Action σ β}
    (rest : ∀ x, r = .ok x → Prints P Q (f x)) : Prints P Q (liftM r >>= f) := by
  cases r with
  | error e =>
    intro s holds
    rw [run_bind_of_error (t := s) (e := e) rfl]
    exact ⟨holds, List.forall_mem_nil _⟩
  | ok x =>
    intro s holds
    rw [run_bind_of_ok (t := s) (x := x) rfl]
    exact rest x rfl s holds

theorem prints_get_bind {f : σ → Action σ β} (rest : ∀ s, P s → Prints P Q (f s)) :
    Prints P Q ((get : Action σ σ) >>= f) := by
  intro s holds
  rw [run_get_bind]
  exact rest s holds s holds

theorem prints_ite {c : Prop} [Decidable c] {a b : Action σ α} (first : c → Prints P Q a)
    (second : ¬c → Prints P Q b) : Prints P Q (if c then a else b) := by
  split
  · next yes => exact first yes
  · next no => exact second no

theorem Prints.ensuring {a : Action σ α} {last : Action σ Unit} (first : Prints P Q a)
    (rest : Prints P Q last) : Prints P Q (a.ensuring last) := by
  intro s holds
  obtain ⟨between, has⟩ := first s holds
  obtain ⟨kept, more⟩ := rest _ between
  refine ⟨kept, fun text member => ?_⟩
  exact (List.mem_append.1 member).elim (has text) (more text)

variable {P' : τ → Prop}

theorem Prints.onFirst {a : Action σ α} (prints : Prints P Q a) :
    Prints (Beside P P') Q a.onFirst := by
  intro s holds
  obtain ⟨kept, has⟩ := prints s.1 holds.1
  exact ⟨⟨kept, holds.2⟩, has⟩

theorem Prints.onSecond {a : Action τ α} (prints : Prints P' Q a) :
    Prints (Beside P P') Q a.onSecond := by
  intro s holds
  obtain ⟨kept, has⟩ := prints s.2 holds.2
  exact ⟨⟨holds.1, kept⟩, has⟩

theorem Prints.withLocal {t : τ} {a : Action (σ × τ) α} (prints : Prints (Beside P P') Q a)
    (holds : P' t) : Prints P Q (withLocal t a) := by
  intro s also
  obtain ⟨kept, has⟩ := prints (s, t) ⟨also, holds⟩
  exact ⟨kept.1, has⟩

end Keystream.Action
