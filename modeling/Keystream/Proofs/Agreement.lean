import Keystream.Proofs.Effect
import Mathlib.Data.List.Forall2
/-!
Two runs side by side, on states that a relation ties together. An action that respects the relation
gives one result on both, prints one text on both, and leaves states that are tied again. Each way
of putting actions together has its rule here.
-/
namespace Keystream

structure Outcome.Alike (R : σ → σ → Prop) (o o' : Outcome σ α) : Prop where
  result : o.result = o'.result
  printed : o.printed = o'.printed
  state : R o.state o'.state

namespace Action

variable {σ τ α β : Type} {R : σ → σ → Prop} {Q : τ → τ → Prop}

/-- Whether two actions come to one thing wherever `R` ties the states they begin in. -/
def Agree (R : σ → σ → Prop) (a b : Action σ α) : Prop :=
  ∀ s t, R s t → (a.run s).Alike R (b.run t)

/-- Whether an action cannot tell states apart that `R` ties together. -/
def Respects (R : σ → σ → Prop) (a : Action σ α) : Prop := Agree R a a

theorem Agree.exists_run {a b : Action σ α} (agree : Agree R a b) {s t : σ} (tied : R s t) :
    ∃ r s' t' texts, a.run s = ⟨r, s', texts⟩ ∧ b.run t = ⟨r, t', texts⟩ ∧ R s' t' := by
  obtain ⟨result, printed, state⟩ := agree s t tied
  refine ⟨(a.run s).result, _, (b.run t).state, (a.run s).printed, rfl, ?_, state⟩
  rw [result, printed]

theorem agree_of_silent {a b : Action σ α}
    (same : ∀ s t, R s t → (a.effect s).1 = (b.effect t).1 ∧ R (a.effect s).2 (b.effect t).2)
    (silent : ∀ s, (a.run s).printed = []) (silent' : ∀ t, (b.run t).printed = []) :
    Agree R a b := by
  intro s t tied
  obtain ⟨result, state⟩ := same s t tied
  exact ⟨result, (silent s).trans (silent' t).symm, state⟩

theorem respects_pure (x : α) : Respects R (Pure.pure x : Action σ α) :=
  agree_of_silent (fun _ _ tied => ⟨rfl, tied⟩) (fun _ => rfl) fun _ => rfl

theorem respects_throw (e : Error) : Respects R (throw e : Action σ α) :=
  agree_of_silent (fun _ _ tied => ⟨rfl, tied⟩) (fun _ => rfl) fun _ => rfl

theorem respects_liftM (r : Except Error α) : Respects R (liftM r : Action σ α) :=
  agree_of_silent (fun _ _ tied => ⟨rfl, tied⟩) (fun _ => rfl) fun _ => rfl

theorem respects_modify {f : σ → σ} (kept : ∀ s t, R s t → R (f s) (f t)) :
    Respects R (modify f : Action σ PUnit) :=
  agree_of_silent (fun s t tied => ⟨rfl, kept s t tied⟩) (fun _ => rfl) fun _ => rfl

theorem agree_set {s t : σ} (tied : R s t) : Agree R (set s : Action σ PUnit) (set t) :=
  agree_of_silent (fun _ _ _ => ⟨rfl, tied⟩) (fun _ => rfl) fun _ => rfl

theorem respects_print (text : String) : Respects R (print text : Action σ Unit) :=
  fun _ _ tied => ⟨rfl, rfl, tied⟩

theorem respects_eq (a : Action σ α) : Respects Eq a := by
  rintro s _ rfl
  exact ⟨rfl, rfl, rfl⟩

theorem Agree.bind {a b : Action σ α} {f g : α → Action σ β} (first : Agree R a b)
    (rest : ∀ x, Agree R (f x) (g x)) : Agree R (a >>= f) (b >>= g) := by
  intro s t tied
  obtain ⟨r, s', t', texts, done, done', tied⟩ := first.exists_run tied
  cases r with
  | error e =>
    rw [run_bind_of_error done, run_bind_of_error done']
    exact ⟨rfl, rfl, tied⟩
  | ok x =>
    rw [run_bind_of_ok done, run_bind_of_ok done']
    obtain ⟨result, printed, tied⟩ := rest x s' t' tied
    exact ⟨result, congrArg (texts ++ ·) printed, tied⟩

theorem agree_get_bind {f g : σ → Action σ β} (rest : ∀ s t, R s t → Agree R (f s) (g t)) :
    Agree R ((get : Action σ σ) >>= f) ((get : Action σ σ) >>= g) := by
  intro s t tied
  rw [run_get_bind, run_get_bind]
  exact rest s t tied s t tied

theorem respects_ite {c : Prop} [Decidable c] {a b : Action σ α} (first : Respects R a)
    (second : Respects R b) : Respects R (if c then a else b) := by
  split
  · exact first
  · exact second

theorem respects_check {c : Prop} [Decidable c] {e : Error} {rest : PUnit → Action σ α}
    (passes : Respects R (rest ⟨⟩)) :
    Respects R (if c then (throw e : Action σ PUnit) >>= rest else rest ⟨⟩) :=
  respects_ite ((respects_throw e).bind fun _ => passes) passes

theorem Respects.tryCatch {a : Action σ α} {handle : Error → Action σ α} (first : Respects R a)
    (rest : ∀ e, Respects R (handle e)) : Respects R (tryCatch a handle) := by
  intro s t tied
  obtain ⟨r, s', t', texts, done, done', tied⟩ := first.exists_run tied
  show ((catching a handle).run s).Alike R ((catching a handle).run t)
  unfold run at done done' ⊢
  simp only [catching, done, done']
  cases r with
  | ok x => exact ⟨rfl, rfl, tied⟩
  | error e =>
    obtain ⟨result, printed, tied⟩ := rest e s' t' tied
    exact ⟨result, congrArg (texts ++ ·) printed, tied⟩

theorem Agree.ensuring {a b : Action σ α} {last last' : Action σ Unit} (first : Agree R a b)
    (rest : Agree R last last') : Agree R (a.ensuring last) (b.ensuring last') := by
  intro s t tied
  obtain ⟨r, s', t', texts, done, done', tied⟩ := first.exists_run tied
  obtain ⟨r', s', t', texts', ended, ended', tied⟩ := rest.exists_run tied
  unfold run at done done' ended ended' ⊢
  simp only [Action.ensuring, done, done', ended, ended']
  exact ⟨rfl, rfl, tied⟩

/-- Both parts of a state are tied, each in its own way. -/
def Tied (R : σ → σ → Prop) (Q : τ → τ → Prop) (s t : σ × τ) : Prop := R s.1 t.1 ∧ Q s.2 t.2

theorem Agree.onFirst {a b : Action σ α} (agree : Agree R a b) :
    Agree (Tied R Q) a.onFirst b.onFirst := by
  intro s t tied
  obtain ⟨result, printed, state⟩ := agree s.1 t.1 tied.1
  exact ⟨result, printed, state, tied.2⟩

theorem Agree.onSecond {a b : Action τ α} (agree : Agree Q a b) :
    Agree (Tied R Q) a.onSecond b.onSecond := by
  intro s t tied
  obtain ⟨result, printed, state⟩ := agree s.2 t.2 tied.2
  exact ⟨result, printed, tied.1, state⟩

end Action

end Keystream
