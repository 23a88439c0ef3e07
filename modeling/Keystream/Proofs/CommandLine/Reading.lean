import Keystream.CommandLine.Options
import Keystream.Proofs.Effect
import Keystream.Proofs.Text.Numeral
/-!
What holds of settings however they are read. A reading carries out options of its rules only, so it
keeps what each of these keeps.
-/
namespace Keystream.CommandLine

section

variable {α : Type} {P : α → Prop} {rules : List (Rule α)} {rule : Rule α} {s t : α}

/-- What an option leads to from settings with `P` are such settings. -/
structure Rule.Keeps (P : α → Prop) (rule : Rule α) : Prop where
  flag : ∀ apply, rule.effect = .flag apply → ∀ s, P s → P (apply s)
  value : ∀ apply, rule.effect = .value apply → ∀ text s t, P s → apply text s = .ok t → P t

theorem keeps_applyAll {todo : List (Rule α × Option String)}
    (kept : ∀ entry ∈ todo, entry.1.Keeps P) (holds : P s)
    (done : applyAll todo s = .ok (some t)) : P t := by
  induction todo generalizing s with
  | nil =>
    cases done
    exact holds
  | cons entry rest ih =>
    obtain ⟨rule, text⟩ := entry
    obtain ⟨first, kept⟩ := List.forall_mem_cons.1 kept
    simp only [applyAll] at done
    split at done
    · cases done
    · next apply isFlag => exact ih kept (first.flag apply isFlag s holds) done
    · next apply isValue =>
      split at done
      · next u set => exact ih kept (first.value apply isValue text s u holds set) done
      · cases done

def Piece.Of (rules : List (Rule α)) : Piece α → Prop
  | .option rule _ _ => rule ∈ rules
  | .operand _ | .separator | .unknown _ => True

theorem mem_of_named? {name : String} (found : named? rules name = some rule) : rule ∈ rules :=
  List.mem_of_find?_eq_some found

theorem mem_of_candidates {arg : List Char} {name : String} {attached : Option (List Char)}
    (found : (rule, name, attached) ∈ candidates rules arg) : rule ∈ rules := by
  obtain ⟨⟨other, _⟩, listed, meant⟩ := List.mem_filterMap.1 found
  have known : other ∈ rules := by
    obtain ⟨_, known, spelled⟩ := List.mem_flatMap.1 listed
    obtain ⟨_, _, same⟩ := List.mem_map.1 spelled
    cases same
    exact known
  grind

theorem of_classify {arg : String} {piece : Piece α} (done : classify rules arg = .ok piece) :
    piece.Of rules := by
  simp only [classify] at done
  split at done
  · cases done
    trivial
  split at done
  · next found =>
    cases done
    exact mem_of_named? found
  split at done
  · cases done
    trivial
  split at done
  · next found =>
    cases done
    obtain ⟨_, _, found⟩ := Option.bind_eq_some_iff.1 found
    exact mem_of_named? found
  split at done
  · next found =>
    cases done
    exact mem_of_candidates (found ▸ List.mem_singleton_self _)
  · split at done <;> cases done <;> trivial
  · cases done

theorem of_classifyAll {args : List String} {pieces : List (Piece α)}
    (done : classifyAll rules args = .ok pieces) : ∀ piece ∈ pieces, piece.Of rules := by
  fun_induction classifyAll rules args generalizing pieces with
  | case1 =>
    cases done
    exact List.forall_mem_nil _
  | case2 rest =>
    cases done
    simp [Piece.Of]
  | case3 arg rest _ ih =>
    obtain ⟨piece, first, done⟩ := bind_eq_ok.1 done
    obtain ⟨pieces, more, done⟩ := bind_eq_ok.1 done
    cases done
    exact List.forall_mem_cons.2 ⟨of_classify first, ih more⟩

def AllOf (rules : List (Rule α)) (todo : List (Rule α × Option String)) : Prop :=
  ∀ entry ∈ todo, entry.1 ∈ rules

theorem allOf_append {first rest : List (Rule α × Option String)} :
    AllOf rules (first ++ rest) ↔ AllOf rules first ∧ AllOf rules rest :=
  List.forall_mem_append

theorem allOf_singleton {text : Option String} : AllOf rules [(rule, text)] ↔ rule ∈ rules :=
  List.forall_mem_singleton

structure Cluster.Of (rules : List (Rule α)) (c : Cluster α) : Prop where
  ready : AllOf rules c.ready
  wanting : ∀ last ∈ c.wanting, last ∈ rules

theorem of_single (known : rule ∈ rules) : (Cluster.single rule).Of rules := by
  unfold Cluster.single
  split <;> constructor <;> simp [AllOf, known]

theorem Cluster.Of.behind {c : Cluster α} (of : c.Of rules) (known : rule ∈ rules) :
    (c.behind rule).Of rules :=
  ⟨List.forall_mem_cons.2 ⟨known, of.ready⟩, of.wanting⟩

theorem of_attached {text : Option String} (known : rule ∈ rules) :
    Cluster.Of rules { ready := [(rule, text)] } :=
  ⟨allOf_singleton.2 known, by simp⟩

theorem of_cluster {short : Bool} {attached : List Char} {c : Cluster α} (known : rule ∈ rules)
    (done : cluster rules rule short attached = .ok c) : c.Of rules := by
  induction attached generalizing rule short c with
  | nil =>
    rw [cluster] at done
    split at done
    · cases done
      exact of_attached known
    · cases done
  | cons letter more ih =>
    have named {next : Rule α}
        (found : (if short then named? rules (String.ofList ['-', letter]) else none) = some next) :
        next ∈ rules := by
      split at found
      · exact mem_of_named? found
      · cases found
    rw [cluster] at done
    split at done
    · cases done
      exact of_attached known
    dsimp only at done
    split at done
    · cases done
    · next found =>
      cases done
      exact (of_single (named found)).behind known
    · next found =>
      obtain ⟨c, inner, done⟩ := bind_eq_ok.1 done
      cases done
      exact (ih (named found) inner).behind known

theorem of_clusterOf {name : String} {attached : Option (List Char)} {c : Cluster α}
    (known : rule ∈ rules) (done : clusterOf rules rule name attached = .ok c) : c.Of rules := by
  cases attached with
  | none =>
    cases done
    exact of_single known
  | some attached => exact of_cluster known done

theorem exists_carriedOut (kept : ∀ rule ∈ rules, rule.Keeps P)
    {todo : List (Rule α × Option String)} (of : AllOf rules todo) (holds : P s)
    {go : α → Except UsageError (Reading α)} {behind : List String}
    (done : (do
      match ← applyAll todo s with
      | some settings => go settings
      | none => return .help) = .ok (.settings t behind)) :
    ∃ u, P u ∧ go u = .ok (.settings t behind) := by
  obtain ⟨settings, applied, done⟩ := bind_eq_ok.1 done
  cases settings with
  | none => cases done
  | some u =>
    exact ⟨u, keeps_applyAll (fun entry member => kept _ (of entry member)) holds applied, done⟩

theorem keeps_readPieces (kept : ∀ rule ∈ rules, rule.Keeps P) {pieces : List (Piece α)}
    (of : ∀ piece ∈ pieces, piece.Of rules) {left behind : List String}
    {waiting : Option (List (Rule α × Option String) × Rule α)}
    (known : ∀ waits ∈ waiting, AllOf rules waits.1 ∧ waits.2 ∈ rules) (holds : P s)
    (done : readPieces rules left waiting pieces s = .ok (.settings t behind)) : P t := by
  fun_induction readPieces rules left waiting pieces s with
  | case1 =>
    cases done
    exact holds
  | case2 left text rest s ih | case3 left rest s ih | case4 left text rest s ih =>
    exact ih (List.forall_mem_cons.1 of).2 known holds done
  | case5 left rule name attached rest s ihWaiting ih =>
    obtain ⟨first, of⟩ := List.forall_mem_cons.1 of
    obtain ⟨c, asked, done⟩ := bind_eq_ok.1 done
    obtain ⟨ready, wanting⟩ := of_clusterOf first asked
    split at done
    · next last wants =>
      exact ihWaiting c last of (by simp [ready, wanting last wants]) holds done
    · obtain ⟨u, holds, done⟩ := exists_carriedOut kept ready holds done
      exact ih u of known holds done
  | case6 left ready last text rest s ih =>
    obtain ⟨before, own⟩ := known _ rfl
    obtain ⟨u, holds, done⟩ :=
      exists_carriedOut kept (allOf_append.2 ⟨before, allOf_singleton.2 own⟩) holds done
    exact ih u (List.forall_mem_cons.1 of).2 (by simp) holds done
  | case7 => cases done

/-- What each option keeps holds of the settings of every command line that is accepted. -/
theorem keeps_read (kept : ∀ rule ∈ rules, rule.Keeps P) {args : List String} (holds : P s)
    (accepted : read rules s args = .ok (some t)) : P t := by
  obtain ⟨pieces, classified, accepted⟩ := bind_eq_ok.1 accepted
  obtain ⟨reading, done, accepted⟩ := bind_eq_ok.1 accepted
  split at accepted
  · cases accepted
  · cases accepted
    exact keeps_readPieces kept (of_classifyAll classified) (by simp) holds done
  · cases accepted

theorem keeps_flag {names : List String} {apply : α → α} (kept : ∀ s, P s → P (apply s)) :
    (⟨names, .flag apply⟩ : Rule α).Keeps P where
  flag _ same := by
    cases same
    exact kept
  value _ same := by cases same

theorem keeps_help {names : List String} : (⟨names, .help⟩ : Rule α).Keeps P where
  flag _ same := by cases same
  value _ same := by cases same

end

theorem keeps_setting {β : Type} {names : List String} {blank : β}
    {reader : String → Except String β} {store : β → Settings → Settings} {P : Settings → Prop}
    (fresh : ∀ s, P s → P (store blank s))
    (kept : ∀ text x s, reader text = .ok x → P s → P (store x s)) :
    (setting names blank reader store).Keeps P where
  flag _ same := by cases same
  value _ same text s t holds done := by
    cases same
    cases text with
    | none =>
      cases done
      exact fresh s holds
    | some text =>
      obtain ⟨x, found, done⟩ := bind_eq_ok.1 done
      cases done
      exact kept text x s found holds

theorem Given.eq_ok_of_map_value {α : Type} {r : Except String α} {x : α}
    (done : Given.value <$> r = .ok (.value x)) : r = .ok x := by
  cases r <;> cases done
  rfl

/-- What the options let through. One that stands without its value leaves no bytes. -/
structure Settings.Sized [Machine] (s : Settings) : Prop where
  key : s.key = [] ∨ s.key.length = 32
  nonce : s.nonce = [] ∨ s.nonce.length = 12
  iterations : ∀ n, s.iterations = .value n → Machine.Spells n
  order : ∀ name, s.order = .value name → name ∈ ByteOrder.names
  expected : ∀ block, s.expected = some block → block = [] ∨ block.length = 64

section

variable {machine : Machine}

theorem length_of_readBytes {size : Nat} {text : String} {block : Bytes}
    (done : readBytes size text = .ok block) : block.length = size := by
  unfold readBytes at done
  split at done
  · cases done
  · split at done
    · next right =>
      cases done
      exact right
    · cases done

theorem spells_of_readInteger {text : String} {n : Int} (done : readInteger text = .ok n) :
    Machine.Spells n := by
  unfold readInteger at done
  split at done
  · next read =>
    cases done
    exact Numeral.spells_of_read read
  · cases done

theorem mem_of_readOrder {text name : String} (done : readOrder text = .ok name) :
    name ∈ ByteOrder.names := by
  unfold readOrder at done
  split at done
  · next known =>
    cases done
    exact List.contains_iff_mem.1 known
  · cases done

theorem keeps_sized [Machine] : ∀ rule ∈ rules, rule.Keeps Settings.Sized := by
  have others {t : Settings} (s : Settings) (key : t.key = s.key) (nonce : t.nonce = s.nonce)
      (iterations : t.iterations = s.iterations) (order : t.order = s.order)
      (expected : t.expected = s.expected) (sized : s.Sized) : t.Sized :=
    ⟨key ▸ sized.key, nonce ▸ sized.nonce, iterations ▸ sized.iterations, order ▸ sized.order,
      expected ▸ sized.expected⟩
  simp only [rules, List.forall_mem_cons]
  refine ⟨keeps_help, keeps_setting ?_ ?_, keeps_setting ?_ ?_,
    keeps_setting ?_ ?_, keeps_setting (fun s => others s rfl rfl rfl rfl rfl) fun _ _ s _ =>
      others s rfl rfl rfl rfl rfl, keeps_setting ?_ ?_, keeps_setting ?_ ?_,
    keeps_setting (fun s => others s rfl rfl rfl rfl rfl) fun _ _ s _ =>
      others s rfl rfl rfl rfl rfl,
    keeps_setting (fun s => others s rfl rfl rfl rfl rfl) fun _ _ s _ =>
      others s rfl rfl rfl rfl rfl,
    keeps_flag fun s => others s rfl rfl rfl rfl rfl, List.forall_mem_nil _⟩
  · exact fun s sized => { sized with key := .inl rfl }
  · exact fun text x s found sized => { sized with key := .inr (length_of_readBytes found) }
  · exact fun s sized => { sized with nonce := .inl rfl }
  · exact fun text x s found sized => { sized with nonce := .inr (length_of_readBytes found) }
  · exact fun s sized => { sized with iterations := by simp }
  · intro text x s found sized
    refine { sized with iterations := fun n same => ?_ }
    subst same
    exact spells_of_readInteger (Given.eq_ok_of_map_value found)
  · exact fun s sized => { sized with order := by simp }
  · intro text x s found sized
    refine { sized with order := fun name same => ?_ }
    subst same
    exact mem_of_readOrder (Given.eq_ok_of_map_value found)
  · exact fun s sized => { sized with expected := fun _ same => .inl (Option.some.inj same).symm }
  · intro text x s found sized
    refine { sized with expected := fun block same => .inr ?_ }
    cases same
    exact length_of_readBytes found

theorem sized_of_read {args : List String} {s : Settings}
    (accepted : read rules {} args = .ok (some s)) : s.Sized := by
  refine keeps_read keeps_sized ?_ accepted
  exact ⟨.inr rfl, .inr rfl, by simp, by simp, by simp⟩

end

end Keystream.CommandLine
