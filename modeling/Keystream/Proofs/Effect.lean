import Keystream.Action
/-!
What an action comes to, whatever it prints: its result and the state it leaves. Each way of putting
actions together has its equation here, and later proofs open actions by these alone.
-/
namespace Keystream

theorem check_eq_ok {c : Prop} [Decidable c] {e : Error} {rest : PUnit → Except Error α} {x : α} :
    (if c then (throw e : Except Error PUnit) >>= rest else rest ⟨⟩) = .ok x ↔
      ¬c ∧ rest ⟨⟩ = .ok x := by
  split
  · next fails => exact ⟨fun h => (nomatch h), fun h => absurd fails h.1⟩
  · next passes => exact ⟨fun h => ⟨passes, h⟩, fun h => h.2⟩

theorem check_eq_error {c : Prop} [Decidable c] {e e' : Error} {rest : PUnit → Except Error α} :
    (if c then (throw e : Except Error PUnit) >>= rest else rest ⟨⟩) = .error e' ↔
      (c ∧ e = e') ∨ (¬c ∧ rest ⟨⟩ = .error e') := by
  split
  · next fails =>
    exact ⟨fun h => .inl ⟨fails, Except.error.inj h⟩,
      fun h => congrArg _ (h.resolve_right fun other => other.1 fails).2⟩
  · next passes =>
    exact ⟨fun h => .inr ⟨passes, h⟩, fun h => (h.resolve_left fun other => passes other.1).2⟩

theorem bind_of_ok {a : Except Error α} {x : α} (h : a = .ok x) (f : α → Except Error β) :
    (a >>= f) = f x := by
  rw [h]
  rfl

theorem bind_of_error {a : Except Error α} {e : Error} (h : a = .error e) (f : α → Except Error β) :
    (a >>= f) = .error e := by
  rw [h]
  rfl

theorem bind_eq_ok {ε : Type} {a : Except ε α} {f : α → Except ε β} {y : β} :
    (a >>= f) = .ok y ↔ ∃ x, a = .ok x ∧ f x = .ok y := by
  cases a with
  | error e => exact ⟨fun h => (nomatch h), fun ⟨_, h, _⟩ => (nomatch h)⟩
  | ok x => exact ⟨fun h => ⟨x, rfl, h⟩, fun ⟨_, same, h⟩ => Except.ok.inj same ▸ h⟩

namespace Action

variable {σ τ α β : Type}

/-- Result and state; what is printed is left out. -/
def effect (a : Action σ α) (s : σ) : Except Error α × σ := ((a.run s).result, (a.run s).state)

@[simp] theorem effect_pure (x : α) (s : σ) :
    (Pure.pure x : Action σ α).effect s = (.ok x, s) := rfl

@[simp] theorem effect_throw (e : Error) (s : σ) :
    (throw e : Action σ α).effect s = (.error e, s) := rfl

@[simp] theorem effect_get (s : σ) : (get : Action σ σ).effect s = (.ok s, s) := rfl

@[simp] theorem effect_set (s t : σ) : (set t : Action σ PUnit).effect s = (.ok ⟨⟩, t) := rfl

@[simp] theorem effect_modify (f : σ → σ) (s : σ) :
    (modify f : Action σ PUnit).effect s = (.ok ⟨⟩, f s) := rfl

@[simp] theorem effect_liftM (r : Except Error α) (s : σ) :
    (liftM r : Action σ α).effect s = (r, s) := rfl

@[simp] theorem effect_printLine (line : String) (s : σ) :
    (printLine line).effect s = (.ok (), s) := rfl

@[simp] theorem effect_printLines (lines : List String) (s : σ) :
    (printLines lines).effect s = (.ok (), s) := rfl

@[simp] theorem effect_print (text : String) (s : σ) : (print text).effect s = (.ok (), s) := rfl

theorem effect_bind (a : Action σ α) (f : α → Action σ β) (s : σ) :
    (a >>= f).effect s =
      match a.effect s with
      | (.ok x, t) => (f x).effect t
      | (.error e, t) => (.error e, t) := by
  rcases h : a.run s with ⟨_ | x, t, printed⟩
  · simp only [effect, run_bind_of_error h, h]
  · simp only [effect, run_bind_of_ok h, h]

theorem effect_bind_of_ok {a : Action σ α} {s t : σ} {x : α} (h : a.effect s = (.ok x, t))
    (f : α → Action σ β) : (a >>= f).effect s = (f x).effect t := by
  rw [effect_bind, h]

theorem effect_bind_of_error {a : Action σ α} {s t : σ} {e : Error}
    (h : a.effect s = (.error e, t)) (f : α → Action σ β) :
    (a >>= f).effect s = (.error e, t) := by
  rw [effect_bind, h]

theorem effect_bind_pure (a : Action σ α) (f : α → β) (s : σ) :
    (a >>= fun x => Pure.pure (f x)).effect s = ((a.effect s).1.map f, (a.effect s).2) := by
  rw [effect_bind]
  rcases a.effect s with ⟨_ | _, _⟩ <;> rfl

theorem effect_bind_eq_ok {a : Action σ α} {f : α → Action σ β} {s t : σ} {y : β} :
    (a >>= f).effect s = (.ok y, t) ↔
      ∃ x u, a.effect s = (.ok x, u) ∧ (f x).effect u = (.ok y, t) := by
  rw [effect_bind]
  rcases a.effect s with ⟨_ | _, _⟩ <;> simp [and_assoc]

theorem effect_bind_pure_eq_error {a : Action σ α} {f : α → β} {s t : σ} {e : Error} :
    (a >>= fun x => Pure.pure (f x)).effect s = (.error e, t) ↔ a.effect s = (.error e, t) := by
  rw [effect_bind_pure]
  rcases a.effect s with ⟨_ | _, _⟩ <;> simp [Except.map]

@[simp] theorem effect_get_bind (f : σ → Action σ β) (s : σ) :
    ((get : Action σ σ) >>= f).effect s = (f s).effect s :=
  effect_bind_of_ok (effect_get s) f

@[simp] theorem effect_set_bind (t : σ) (f : PUnit → Action σ β) (s : σ) :
    ((set t : Action σ PUnit) >>= f).effect s = (f ⟨⟩).effect t :=
  effect_bind_of_ok (effect_set s t) f

theorem effect_ite (c : Prop) [Decidable c] (a b : Action σ α) (s : σ) :
    (if c then a else b).effect s = if c then a.effect s else b.effect s := by
  split <;> rfl

theorem effect_tryCatch (a : Action σ α) (handle : Error → Action σ α) (s : σ) :
    (tryCatch a handle : Action σ α).effect s =
      match a.effect s with
      | (.ok x, t) => (.ok x, t)
      | (.error e, t) => (handle e).effect t := by
  show ((catching a handle).run s |>.result, (catching a handle).run s |>.state) = _
  rcases h : a s with ⟨_ | x, t, printed⟩ <;> simp only [effect, run, catching, h]

theorem effect_tryCatch_of_ok {a : Action σ α} {s t : σ} {x : α} (h : a.effect s = (.ok x, t))
    (handle : Error → Action σ α) : (tryCatch a handle : Action σ α).effect s = (.ok x, t) := by
  rw [effect_tryCatch, h]

theorem effect_tryCatch_of_error {a : Action σ α} {s t : σ} {e : Error}
    (h : a.effect s = (.error e, t)) (handle : Error → Action σ α) :
    (tryCatch a handle : Action σ α).effect s = (handle e).effect t := by
  rw [effect_tryCatch, h]

theorem effect_step (f : σ → Except Error (α × σ)) (s : σ) :
    (step f).effect s =
      match f s with
      | .ok (x, t) => (.ok x, t)
      | .error e => (.error e, s) := by
  rcases h : f s with _ | ⟨x, t⟩ <;> simp only [effect, run, step, h]

theorem effect_ensuring (a : Action σ α) (last : Action σ Unit) (s : σ) :
    (a.ensuring last).effect s =
      match last.effect (a.effect s).2 with
      | (.ok _, t) => ((a.effect s).1, t)
      | (.error e, t) => (.error e, t) := by
  simp only [effect, run, ensuring]
  rcases last (a s).state with ⟨_ | _, t, printed⟩ <;> rfl

@[simp] theorem effect_onFirst (a : Action σ α) (s : σ) (t : τ) :
    (a.onFirst : Action (σ × τ) α).effect (s, t) = ((a.effect s).1, ((a.effect s).2, t)) := rfl

@[simp] theorem effect_onSecond (a : Action τ α) (s : σ) (t : τ) :
    (a.onSecond : Action (σ × τ) α).effect (s, t) = ((a.effect t).1, (s, (a.effect t).2)) := rfl

theorem effect_withLocal (t : τ) (a : Action (σ × τ) α) (s : σ) :
    (withLocal t a).effect s =
      ((a.effect (s, t)).1.map (·, (a.effect (s, t)).2.2), (a.effect (s, t)).2.1) := rfl

def attempt (a : Action σ Unit) : Action σ Unit := tryCatch a fun _ => Pure.pure ()

@[simp] theorem effect_attempt (a : Action σ Unit) (s : σ) :
    (attempt a).effect s = (.ok (), (a.effect s).2) := by
  rw [attempt, effect_tryCatch]
  rcases a.effect s with ⟨_ | _, t⟩ <;> rfl

/-- The state that some actions lead to in turn, whatever comes of each. -/
def after (actions : List (Action σ Unit)) (s : σ) : σ :=
  actions.foldl (fun s a => (a.effect s).2) s

theorem after_append (first rest : List (Action σ Unit)) (s : σ) :
    after (first ++ rest) s = after rest (after first s) :=
  List.foldl_append

/-- Whether an action leads from states with `P` to such states only, if it fails too. -/
def Keeps (P : σ → Prop) (a : Action σ α) : Prop := ∀ s, P s → P (a.effect s).2

section

variable {P : σ → Prop}

theorem keeps_of_unchanged {a : Action σ α} (same : ∀ s, (a.effect s).2 = s) : Keeps P a :=
  fun s holds => (same s).symm ▸ holds

theorem keeps_pure (x : α) : Keeps P (Pure.pure x : Action σ α) := keeps_of_unchanged fun _ => rfl

theorem keeps_throw (e : Error) : Keeps P (throw e : Action σ α) := keeps_of_unchanged fun _ => rfl

theorem keeps_get : Keeps P (get : Action σ σ) := keeps_of_unchanged fun _ => rfl

theorem keeps_liftM (r : Except Error α) : Keeps P (liftM r : Action σ α) :=
  keeps_of_unchanged fun _ => rfl

theorem Keeps.bind {a : Action σ α} {f : α → Action σ β} (first : Keeps P a)
    (rest : ∀ x, Keeps P (f x)) : Keeps P (a >>= f) := by
  intro s holds
  have between := first s holds
  rw [effect_bind]
  rcases done : a.effect s with ⟨_ | x, t⟩
  · rwa [done] at between
  · rw [done] at between
    exact rest x t between

theorem keeps_liftM_bind {r : Except Error α} {f : α → Action σ β}
    (rest : ∀ x, r = .ok x → Keeps P (f x)) : Keeps P (liftM r >>= f) := by
  intro s holds
  rw [effect_bind, effect_liftM]
  rcases r with e | x
  · exact holds
  · exact rest x rfl s holds

theorem keeps_ite {c : Prop} [Decidable c] {a b : Action σ α} (first : c → Keeps P a)
    (second : ¬c → Keeps P b) : Keeps P (if c then a else b) := by
  split
  · next yes => exact first yes
  · next no => exact second no

theorem Keeps.attempt {a : Action σ Unit} (kept : Keeps P a) : Keeps P (attempt a) := by
  intro s holds
  rw [effect_attempt]
  exact kept s holds

theorem Keeps.tryCatch {a : Action σ α} {handle : Error → Action σ α} (first : Keeps P a)
    (rest : ∀ e, Keeps P (handle e)) : Keeps P (tryCatch a handle) := by
  intro s holds
  have between := first s holds
  rw [effect_tryCatch]
  rcases done : a.effect s with ⟨e | x, t⟩
  · rw [done] at between
    exact rest e t between
  · rwa [done] at between

theorem Keeps.ensuring {a : Action σ α} {last : Action σ Unit} (first : Keeps P a)
    (rest : Keeps P last) : Keeps P (a.ensuring last) := by
  intro s holds
  have kept := rest _ (first s holds)
  rw [effect_ensuring]
  rcases done : last.effect (a.effect s).2 with ⟨_ | _, t⟩ <;>
  · rw [done] at kept
    exact kept

theorem Keeps.after {actions : List (Action σ Unit)} (kept : ∀ a ∈ actions, Keeps P a) :
    ∀ s, P s → P (Action.after actions s) := by
  induction actions with
  | nil => exact fun _ holds => holds
  | cons a rest ih =>
    obtain ⟨first, kept⟩ := List.forall_mem_cons.1 kept
    exact fun s holds => ih kept _ (first s holds)

theorem keeps_onFirst {Q : τ → Prop} (a : Action σ α) :
    Keeps (fun s : σ × τ => Q s.2) a.onFirst :=
  fun _ holds => holds

theorem Keeps.onSecond {Q : τ → Prop} {a : Action τ α} (kept : Keeps Q a) :
    Keeps (fun s : σ × τ => Q s.2) a.onSecond :=
  fun s holds => kept s.2 holds

theorem Keeps.onFirst {a : Action σ α} (kept : Keeps P a) :
    Keeps (fun s : σ × τ => P s.1) a.onFirst :=
  fun s holds => kept s.1 holds

theorem keeps_onSecond (a : Action τ α) : Keeps (fun s : σ × τ => P s.1) a.onSecond :=
  fun _ holds => holds

theorem keeps_step {f : σ → Except Error (α × σ)}
    (kept : ∀ s x t, P s → f s = .ok (x, t) → P t) : Keeps P (step f) := by
  intro s holds
  rw [effect_step]
  split
  · next x t done => exact kept s x t holds done
  · exact holds

end

end Action

end Keystream
