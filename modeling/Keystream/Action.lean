import Keystream.Error
/-!
Actions: they change a state, print, and may fail. What was changed and printed before a failure
stays, so a run that failed half way can be told from one that never began.
-/
namespace Keystream

structure Outcome (σ α : Type) where
  result : Except Error α
  state : σ
  printed : List String

def Action (σ α : Type) : Type := σ → Outcome σ α

namespace Action

def run (a : Action σ α) (s : σ) : Outcome σ α := a s

@[always_inline, inline]
def pure (x : α) : Action σ α := fun s => ⟨.ok x, s, []⟩

@[always_inline, inline]
def bind (a : Action σ α) (f : α → Action σ β) : Action σ β := fun s =>
  match a s with
  | ⟨.error e, t, printed⟩ => ⟨.error e, t, printed⟩
  | ⟨.ok x, t, printed⟩ =>
    let rest := f x t
    ⟨rest.result, rest.state, printed ++ rest.printed⟩

@[always_inline, inline]
def catching (a : Action σ α) (handle : Error → Action σ α) : Action σ α := fun s =>
  match a s with
  | ⟨.ok x, t, printed⟩ => ⟨.ok x, t, printed⟩
  | ⟨.error e, t, printed⟩ =>
    let rest := handle e t
    ⟨rest.result, rest.state, printed ++ rest.printed⟩

@[always_inline]
instance : Monad (Action σ) where
  pure := Action.pure
  bind := Action.bind

@[always_inline]
instance : MonadExceptOf Error (Action σ) where
  throw e := fun s => ⟨.error e, s, []⟩
  tryCatch := catching

@[always_inline]
instance : MonadStateOf σ (Action σ) where
  get := fun s => ⟨.ok s, s, []⟩
  set s := fun _ => ⟨.ok (), s, []⟩
  modifyGet f := fun s => let (x, t) := f s; ⟨.ok x, t, []⟩

@[always_inline]
instance : MonadLift (Except Error) (Action σ) where
  monadLift r := fun s => ⟨r, s, []⟩

@[always_inline, inline]
def step (f : σ → Except Error (α × σ)) : Action σ α := fun s =>
  match f s with
  | .ok (x, t) => ⟨.ok x, t, []⟩
  | .error e => ⟨.error e, s, []⟩

def print (text : String) : Action σ Unit := fun s => ⟨.ok (), s, [text]⟩

def printLine (line : String) : Action σ Unit := print (line ++ "\n")

def printLines (lines : List String) : Action σ Unit := fun s => ⟨.ok (), s, lines.map (· ++ "\n")⟩

/-- Runs `last` whatever came of `a`; a failure of `last` takes the place of what `a` gave. -/
def ensuring (a : Action σ α) (last : Action σ Unit) : Action σ α := fun s =>
  let first := a s
  let second := last first.state
  ⟨match second.result with
    | .ok _ => first.result
    | .error e => .error e,
   second.state, first.printed ++ second.printed⟩

@[always_inline, inline]
def onFirst (a : Action σ α) : Action (σ × τ) α := fun (s, t) =>
  let done := a s
  ⟨done.result, (done.state, t), done.printed⟩

@[always_inline, inline]
def onSecond (a : Action τ α) : Action (σ × τ) α := fun (s, t) =>
  let done := a t
  ⟨done.result, (s, done.state), done.printed⟩

/-- Acts with a further state `t` that lives only as long, and gives what became of it. -/
def withLocal (t : τ) (a : Action (σ × τ) α) : Action σ (α × τ) := fun s =>
  let done := a (s, t)
  ⟨done.result.map (·, done.state.2), done.state.1, done.printed⟩

@[simp] theorem run_pure (x : α) (s : σ) : (Pure.pure x : Action σ α).run s = ⟨.ok x, s, []⟩ := rfl

@[simp] theorem run_throw (e : Error) (s : σ) :
    (throw e : Action σ α).run s = ⟨.error e, s, []⟩ := rfl

@[simp] theorem run_get (s : σ) : (get : Action σ σ).run s = ⟨.ok s, s, []⟩ := rfl

@[simp] theorem run_set (s t : σ) : (set t : Action σ PUnit).run s = ⟨.ok ⟨⟩, t, []⟩ := rfl

@[simp] theorem run_modify (f : σ → σ) (s : σ) :
    (modify f : Action σ PUnit).run s = ⟨.ok ⟨⟩, f s, []⟩ := rfl

theorem run_bind_of_ok {a : Action σ α} {s t : σ} {x : α} {printed : List String}
    (h : a.run s = ⟨.ok x, t, printed⟩) (f : α → Action σ β) :
    (a >>= f).run s =
      ⟨((f x).run t).result, ((f x).run t).state, printed ++ ((f x).run t).printed⟩ := by
  show Action.bind a f s = _
  unfold run at h
  simp only [bind, h]
  rfl

theorem run_bind_of_error {a : Action σ α} {s t : σ} {e : Error} {printed : List String}
    (h : a.run s = ⟨.error e, t, printed⟩) (f : α → Action σ β) :
    (a >>= f).run s = ⟨.error e, t, printed⟩ := by
  show Action.bind a f s = _
  unfold run at h
  simp only [bind, h]

theorem run_get_bind (f : σ → Action σ β) (s : σ) :
    ((get : Action σ σ) >>= f).run s = (f s).run s :=
  run_bind_of_ok (run_get s) f

theorem run_set_bind (t : σ) (f : PUnit → Action σ β) (s : σ) :
    ((set t : Action σ PUnit) >>= f).run s = (f ⟨⟩).run t :=
  run_bind_of_ok (run_set s t) f

theorem id_map' (a : Action σ α) : id <$> a = a := by
  funext s
  show Action.bind a (fun x => Action.pure x) s = a s
  unfold Action.bind Action.pure
  rcases a s with ⟨_ | _, _, _⟩ <;> simp

theorem pure_bind' (x : α) (f : α → Action σ β) : (Pure.pure x : Action σ α) >>= f = f x := by
  funext s
  show Action.bind (Action.pure x) f s = f x s
  simp [Action.bind, Action.pure]

theorem bind_assoc' (a : Action σ α) (f : α → Action σ β) (g : β → Action σ γ) :
    a >>= f >>= g = a >>= fun x => f x >>= g := by
  funext s
  show Action.bind (Action.bind a f) g s = Action.bind a (fun x => Action.bind (f x) g) s
  unfold Action.bind
  rcases a s with ⟨_ | x, t, _⟩
  · rfl
  · rcases h : f x t with ⟨_ | _, _, _⟩ <;> simp [h]

instance : LawfulMonad (Action σ) := .mk' _ id_map' pure_bind' bind_assoc'

end Action

end Keystream
