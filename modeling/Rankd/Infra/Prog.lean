import Mathlib.Tactic

/-!
# Programs over a state that can stop with a fault

A `Prog σ ε α` runs on a state, ends with a value or a fault, and keeps the state in both cases.

* symbolic execution: `bind_ok` and `bind_error` run a program one statement at a time
* `Triple P p Q F`: from `P`, the program ends in `Q` with its value, or in `F` at a fault
* `zoom` runs a program on a part of the state, and leaves the rest alone by construction
* `forEach` is a loop over a list, with an invariant rule
* `ReadOnly` programs keep everything, `Preserves f` programs keep what `f` reads
* `Spec P p Q E`: as a triple, with the faults and not the state they leave
* `Yields` is about the end of a program, `Succeeds` about whether it gets there
-/

namespace Rankd.Infra

/-- A program over the state `σ` with faults in `ε`. -/
structure Prog (σ ε α : Type) where
  run : σ → Except ε α × σ

namespace Prog

variable {σ τ ε α β : Type}

protected def pure (a : α) : Prog σ ε α := ⟨fun s => (.ok a, s)⟩

protected def bind (p : Prog σ ε α) (f : α → Prog σ ε β) : Prog σ ε β :=
  ⟨fun s => match p.run s with
    | (.ok a, s') => (f a).run s'
    | (.error e, s') => (.error e, s')⟩

instance : Monad (Prog σ ε) where
  pure := Prog.pure
  bind := Prog.bind

def get : Prog σ ε σ := ⟨fun s => (.ok s, s)⟩

def modify (f : σ → σ) : Prog σ ε Unit := ⟨fun s => (.ok (), f s)⟩

def fault (e : ε) : Prog σ ε α := ⟨fun s => (.error e, s)⟩

/-- Faults unless the condition holds. -/
def ensure (c : Bool) (e : ε) : Prog σ ε Unit := if c then pure () else fault e

/-- The value of an option, a fault for `none`. -/
def require (o : Option α) (e : ε) : Prog σ ε α :=
  match o with
  | some a => pure a
  | none => fault e

/-- Runs a program on the part of the state that `view` selects and `put` replaces. -/
def zoom (view : σ → τ) (put : τ → σ → σ) (p : Prog τ ε α) : Prog σ ε α :=
  ⟨fun s => ((p.run (view s)).1, put (p.run (view s)).2 s)⟩

/-- A loop over a list. -/
def forEach (l : List α) (body : α → Prog σ ε Unit) : Prog σ ε Unit :=
  match l with
  | [] => pure ()
  | a :: rest => do
    body a
    forEach rest body

/-! ## Symbolic execution -/

@[simp] theorem run_pure (a : α) (s : σ) : (pure a : Prog σ ε α).run s = (.ok a, s) := rfl

@[simp] theorem run_get (s : σ) : (get : Prog σ ε σ).run s = (.ok s, s) := rfl

@[simp] theorem run_modify (f : σ → σ) (s : σ) :
    (modify f : Prog σ ε Unit).run s = (.ok (), f s) := rfl

@[simp] theorem run_fault (e : ε) (s : σ) : (fault e : Prog σ ε α).run s = (.error e, s) := rfl

theorem run_bind (p : Prog σ ε α) (f : α → Prog σ ε β) (s : σ) :
    (p >>= f).run s = match p.run s with
      | (.ok a, s') => (f a).run s'
      | (.error e, s') => (.error e, s') := rfl

theorem bind_ok {p : Prog σ ε α} {f : α → Prog σ ε β} {s s' : σ} {a : α}
    (h : p.run s = (.ok a, s')) : (p >>= f).run s = (f a).run s' := by
  rw [run_bind, h]

theorem bind_error {p : Prog σ ε α} {f : α → Prog σ ε β} {s s' : σ} {e : ε}
    (h : p.run s = (.error e, s')) : (p >>= f).run s = (.error e, s') := by
  rw [run_bind, h]

/-- A program that ran to its end ran its first statement to its end. -/
theorem bind_eq_ok {p : Prog σ ε α} {f : α → Prog σ ε β} {s s' : σ} {b : β} :
    (p >>= f).run s = (.ok b, s') ↔
      ∃ a s₁, p.run s = (.ok a, s₁) ∧ (f a).run s₁ = (.ok b, s') := by
  rw [run_bind]
  constructor
  · intro h
    rcases hp : p.run s with ⟨r, s₁⟩
    rw [hp] at h
    cases r with
    | ok a => exact ⟨a, s₁, rfl, h⟩
    | error e => exact absurd h (by simp)
  · rintro ⟨a, s₁, hp, hf⟩
    rw [hp]
    exact hf

@[simp] theorem pure_bind (a : α) (f : α → Prog σ ε β) : (pure a >>= f) = f a := rfl

@[simp] theorem ensure_true (e : ε) : (ensure true e : Prog σ ε Unit) = pure () := rfl

@[simp] theorem ensure_false (e : ε) : (ensure false e : Prog σ ε Unit) = fault e := rfl

@[simp] theorem require_some (a : α) (e : ε) : (require (some a) e : Prog σ ε α) = pure a := rfl

@[simp] theorem require_none (e : ε) : (require none e : Prog σ ε α) = fault e := rfl

@[simp] theorem forEach_nil (body : α → Prog σ ε Unit) : forEach [] body = pure () := rfl

@[simp] theorem forEach_cons (a : α) (l : List α) (body : α → Prog σ ε Unit) :
    forEach (a :: l) body = (do body a; forEach l body) := rfl

theorem run_zoom {view : σ → τ} {put : τ → σ → σ} {p : Prog τ ε α} {s : σ} {r : Except ε α} {t : τ}
    (h : p.run (view s) = (r, t)) : (zoom view put p).run s = (r, put t s) := by
  simp only [zoom, h]

/-! ## Triples -/

/-- From `P` the program ends in `Q` with its value, or in `F` at a fault. -/
def Triple (P : σ → Prop) (p : Prog σ ε α) (Q : α → σ → Prop) (F : σ → Prop) : Prop :=
  ∀ s, P s → match p.run s with
    | (.ok a, s') => Q a s'
    | (.error _, s') => F s'

namespace Triple

variable {P P' : σ → Prop} {Q : α → σ → Prop} {R : β → σ → Prop} {F : σ → Prop}
  {p : Prog σ ε α}

theorem ok (h : Triple P p Q F) {s s' : σ} {a : α} (hs : P s) (hr : p.run s = (.ok a, s')) :
    Q a s' := by
  have := h s hs
  rw [hr] at this
  exact this

theorem fault (h : Triple P p Q F) {s s' : σ} {e : ε} (hs : P s) (hr : p.run s = (.error e, s')) :
    F s' := by
  have := h s hs
  rw [hr] at this
  exact this

theorem intro (hok : ∀ s a s', P s → p.run s = (.ok a, s') → Q a s')
    (herr : ∀ s e s', P s → p.run s = (.error e, s') → F s') : Triple P p Q F := by
  intro s hs
  rcases hp : p.run s with ⟨r, s'⟩
  cases r with
  | ok a => exact hok s a s' hs hp
  | error e => exact herr s e s' hs hp

theorem pure {a : α} (h : ∀ s, P s → Q a s) : Triple P (Pure.pure a : Prog σ ε α) Q F := h

theorem bind {f : α → Prog σ ε β} (hp : Triple P p Q F) (hf : ∀ a, Triple (Q a) (f a) R F) :
    Triple P (p >>= f) R F := by
  intro s hs
  rw [run_bind]
  rcases hr : p.run s with ⟨r, s'⟩
  cases r with
  | ok a => exact hf a s' (hp.ok hs hr)
  | error e => exact hp.fault hs hr

theorem weaken {Q' : α → σ → Prop} (h : Triple P p Q F) (hP : ∀ s, P' s → P s)
    (hQ : ∀ a s, Q a s → Q' a s) : Triple P' p Q' F := by
  refine intro ?_ ?_
  · intro s a s' hs hr
    exact hQ a s' (h.ok (hP s hs) hr)
  · intro s e s' hs hr
    exact h.fault (hP s hs) hr

theorem weakenFault {F' : σ → Prop} (h : Triple P p Q F) (hF : ∀ s, F s → F' s) :
    Triple P p Q F' := by
  refine intro ?_ ?_
  · intro s a s' hs hr
    exact h.ok hs hr
  · intro s e s' hs hr
    exact hF s' (h.fault hs hr)

/-- A fact that does not depend on the state moves out of the precondition. -/
theorem assume {c : Prop} (h : c → Triple P p Q F) : Triple (fun s => P s ∧ c) p Q F := by
  rintro s ⟨hs, hc⟩
  exact h hc s hs

theorem get {Q : σ → σ → Prop} (h : ∀ s, P s → Q s s) :
    Triple P (Prog.get : Prog σ ε σ) Q F := h

theorem modify {f : σ → σ} {Q : Unit → σ → Prop} (h : ∀ s, P s → Q () (f s)) :
    Triple P (Prog.modify f : Prog σ ε Unit) Q F := h

theorem fault_intro {e : ε} (h : ∀ s, P s → F s) :
    Triple P (Prog.fault e : Prog σ ε α) Q F := h

theorem ensure {c : Bool} {e : ε} {Q : Unit → σ → Prop} (hc : c = true → ∀ s, P s → Q () s)
    (hF : ∀ s, P s → F s) : Triple P (Prog.ensure c e : Prog σ ε Unit) Q F := by
  cases c with
  | true => exact hc rfl
  | false => exact hF

theorem require {o : Option α} {e : ε} (hc : ∀ a, o = some a → ∀ s, P s → Q a s)
    (hF : ∀ s, P s → F s) : Triple P (Prog.require o e : Prog σ ε α) Q F := by
  cases o with
  | some a => exact hc a rfl
  | none => exact hF

theorem ite {c : Prop} [Decidable c] {q : Prog σ ε α} (ht : c → Triple P p Q F)
    (hf : ¬c → Triple P q Q F) : Triple P (if c then p else q) Q F := by
  by_cases hc : c
  · rw [if_pos hc]; exact ht hc
  · rw [if_neg hc]; exact hf hc

/-- The rule of a loop with an invariant. -/
theorem forEach {I : σ → Prop} {l : List α} {body : α → Prog σ ε Unit}
    (h : ∀ a ∈ l, Triple I (body a) (fun _ => I) F) :
    Triple I (Prog.forEach l body) (fun _ => I) F := by
  induction l with
  | nil => exact Triple.pure fun _ hs => hs
  | cons a rest ih =>
    refine Triple.bind (h a List.mem_cons_self) fun _ => ih ?_
    intro b hb
    exact h b (List.mem_cons_of_mem a hb)

/-- A statement about the part a zoomed program runs on. -/
theorem zoom {view : σ → τ} {put : τ → σ → σ} {q : Prog τ ε α} {P' : τ → Prop}
    {Q' : α → τ → Prop} {F' : τ → Prop} {s₀ : σ} (h : Triple P' q Q' F')
    (hP : P' (view s₀)) (hQ : ∀ a t, Q' a t → Q a (put t s₀)) (hF : ∀ t, F' t → F (put t s₀)) :
    Triple (fun s => s = s₀) (Prog.zoom view put q) Q F := by
  rintro s rfl
  rcases hr : q.run (view s) with ⟨r, t⟩
  rw [run_zoom hr]
  cases r with
  | ok a => exact hQ a t (h.ok hP hr)
  | error e => exact hF t (h.fault hP hr)

end Triple

/-! ## Programs that only read -/

/-- The state is left as it is, with or without a fault. -/
def ReadOnly (p : Prog σ ε α) : Prop := ∀ s, (p.run s).2 = s

namespace ReadOnly

variable {p : Prog σ ε α}

theorem pure (a : α) : ReadOnly (Pure.pure a : Prog σ ε α) := fun _ => rfl

theorem get : ReadOnly (Prog.get : Prog σ ε σ) := fun _ => rfl

theorem fault (e : ε) : ReadOnly (Prog.fault e : Prog σ ε α) := fun _ => rfl

theorem ensure (c : Bool) (e : ε) : ReadOnly (Prog.ensure c e : Prog σ ε Unit) := by
  cases c with
  | true => exact pure ()
  | false => exact fault e

theorem require (o : Option α) (e : ε) : ReadOnly (Prog.require o e : Prog σ ε α) := by
  cases o with
  | some a => exact pure a
  | none => exact fault e

theorem ite {c : Prop} [Decidable c] {q : Prog σ ε α} (hp : ReadOnly p) (hq : ReadOnly q) :
    ReadOnly (if c then p else q) := by
  by_cases hc : c
  · rw [if_pos hc]
    exact hp
  · rw [if_neg hc]
    exact hq

theorem bind {f : α → Prog σ ε β} (hp : ReadOnly p) (hf : ∀ a, ReadOnly (f a)) :
    ReadOnly (p >>= f) := by
  intro s
  have hs := hp s
  rw [run_bind]
  rcases hr : p.run s with ⟨r, s'⟩
  rw [hr] at hs
  cases hs
  cases r with
  | ok a => exact hf a s'
  | error e => rfl

/-- What holds before holds afterwards. -/
theorem triple {P : σ → Prop} (hp : ReadOnly p) : Triple P p (fun _ => P) P := by
  intro s hs
  have hs' := hp s
  rcases hr : p.run s with ⟨r, s'⟩
  rw [hr] at hs'
  cases hs'
  cases r with
  | ok a => exact hs
  | error e => exact hs

end ReadOnly

/-! ## Programs that keep a part -/

/-- What `f` reads of the state is left as it is, with or without a fault. -/
def Preserves (f : σ → τ) (p : Prog σ ε α) : Prop := ∀ s, f (p.run s).2 = f s

namespace Preserves

variable {f : σ → τ} {p : Prog σ ε α}

theorem readOnly (hp : ReadOnly p) : Preserves f p := fun s => congrArg f (hp s)

theorem pure (a : α) : Preserves f (Pure.pure a : Prog σ ε α) := fun _ => rfl

theorem fault (e : ε) : Preserves f (Prog.fault e : Prog σ ε α) := fun _ => rfl

theorem modify {g : σ → σ} (h : ∀ s, f (g s) = f s) :
    Preserves f (Prog.modify g : Prog σ ε Unit) := h

theorem bind {q : α → Prog σ ε β} (hp : Preserves f p) (hq : ∀ a, Preserves f (q a)) :
    Preserves f (p >>= q) := by
  intro s
  have hs := hp s
  rw [run_bind]
  rcases hr : p.run s with ⟨r, s'⟩
  rw [hr] at hs
  cases r with
  | ok a => exact (hq a s').trans hs
  | error e => exact hs

theorem get {q : σ → Prog σ ε β} (hq : ∀ s, Preserves f (q s)) : Preserves f (Prog.get >>= q) :=
  .bind (.readOnly .get) hq

theorem ite {c : Prop} [Decidable c] {q : Prog σ ε α} (hp : Preserves f p) (hq : Preserves f q) :
    Preserves f (if c then p else q) := by
  by_cases hc : c
  · rw [if_pos hc]
    exact hp
  · rw [if_neg hc]
    exact hq

theorem forEach {l : List α} {body : α → Prog σ ε Unit} (h : ∀ a, Preserves f (body a)) :
    Preserves f (Prog.forEach l body) := by
  induction l with
  | nil => exact pure ()
  | cons a rest ih => exact bind (h a) fun _ => ih

theorem zoom {ρ : Type} {view : σ → ρ} {put : ρ → σ → σ} {q : Prog ρ ε α}
    (h : ∀ s t, f (put t s) = f s) : Preserves f (Prog.zoom view put q) :=
  fun s => h s (q.run (view s)).2

theorem ok (hp : Preserves f p) {s s' : σ} {a : α} (hr : p.run s = (.ok a, s')) : f s' = f s := by
  have hs := hp s
  rw [hr] at hs
  exact hs

end Preserves

/-! ## Programs that keep an invariant -/

/-- What holds before holds afterwards, unless the program faults. -/
def Maintains (I : σ → Prop) (p : Prog σ ε α) : Prop := Triple I p (fun _ => I) fun _ => True

namespace Maintains

variable {I : σ → Prop} {p : Prog σ ε α}

theorem pure (a : α) : Maintains I (Pure.pure a : Prog σ ε α) := Triple.pure fun _ h => h

theorem fault (e : ε) : Maintains I (Prog.fault e : Prog σ ε α) :=
  Triple.fault_intro fun _ _ => trivial

theorem readOnly (hp : ReadOnly p) : Maintains I p := hp.triple.weakenFault fun _ _ => trivial

/-- A program that changes nothing unless it faults. -/
theorem of_ok (h : ∀ {s s' : σ} {a : α}, p.run s = (.ok a, s') → s' = s) : Maintains I p := by
  refine Triple.intro ?_ fun _ _ _ _ _ => trivial
  intro s a s' hs hrun
  rw [h hrun]
  exact hs

theorem modify {f : σ → σ} (h : ∀ s, I s → I (f s)) :
    Maintains I (Prog.modify f : Prog σ ε Unit) := Triple.modify h

theorem bind {q : α → Prog σ ε β} (hp : Maintains I p) (hq : ∀ a, Maintains I (q a)) :
    Maintains I (p >>= q) := Triple.bind hp hq

/-- The state that is read is one of the invariant. -/
theorem get {q : σ → Prog σ ε β} (hq : ∀ s, I s → Maintains I (q s)) :
    Maintains I (Prog.get >>= q) := by
  intro s hs
  rw [bind_ok (run_get s)]
  exact hq s hs s hs

theorem ite {c : Prop} [Decidable c] {q : Prog σ ε α} (hp : Maintains I p) (hq : Maintains I q) :
    Maintains I (if c then p else q) := Triple.ite (fun _ => hp) fun _ => hq

theorem forEach {l : List α} {body : α → Prog σ ε Unit} (h : ∀ a, Maintains I (body a)) :
    Maintains I (Prog.forEach l body) := Triple.forEach fun a _ => h a

theorem zoom {view : σ → τ} {put : τ → σ → σ} {J : τ → Prop} {q : Prog τ ε α} (hq : Maintains J q)
    (hview : ∀ s, I s → J (view s)) (hput : ∀ s t, I s → J t → I (put t s)) :
    Maintains I (Prog.zoom view put q) := by
  intro s hs
  have hrun : Triple (fun s' => s' = s) (Prog.zoom view put q) (fun _ => I) fun _ => True :=
    Triple.zoom hq (hview s hs) (fun _ t ht => hput s t hs ht) fun _ _ => trivial
  exact hrun s rfl

end Maintains

/-! ## How programs end -/

/-- However it starts, the program ends in `Q` unless it faults. -/
def Yields (p : Prog σ ε α) (Q : α → σ → Prop) : Prop :=
  ∀ s a s', p.run s = (.ok a, s') → Q a s'

namespace Yields

variable {p : Prog σ ε α} {Q Q' : α → σ → Prop}

/-- Only the last part of a program matters. -/
theorem bind {f : α → Prog σ ε β} {R : β → σ → Prop} (hf : ∀ a, Yields (f a) R) :
    Yields (p >>= f) R := by
  intro s b s' hrun
  obtain ⟨a, s₁, -, hrest⟩ := bind_eq_ok.mp hrun
  exact hf a s₁ b s' hrest

/-- What the first part yields is kept by the second. -/
theorem seq {f : α → Prog σ ε β} {R : β → σ → Prop} (hp : Yields p Q)
    (hf : ∀ a s b s', Q a s → (f a).run s = (.ok b, s') → R b s') : Yields (p >>= f) R := by
  intro s b s' hrun
  obtain ⟨a, s₁, hfirst, hrest⟩ := bind_eq_ok.mp hrun
  exact hf a s₁ b s' (hp s a s₁ hfirst) hrest

theorem ite {c : Prop} [Decidable c] {q : Prog σ ε α} (hp : Yields p Q) (hq : Yields q Q) :
    Yields (if c then p else q) Q := by
  by_cases hc : c
  · rw [if_pos hc]
    exact hp
  · rw [if_neg hc]
    exact hq

theorem fault (e : ε) : Yields (Prog.fault e : Prog σ ε α) Q := by
  intro s a s' hrun
  cases hrun

end Yields

/-! ## Which faults there are -/

/-- From `P` the program ends in `Q` with its value, or with a fault of `E`. -/
def Spec (P : σ → Prop) (p : Prog σ ε α) (Q : α → σ → Prop) (E : ε → Prop) : Prop :=
  ∀ s, P s → match p.run s with
    | (.ok a, s') => Q a s'
    | (.error e, _) => E e

namespace Spec

variable {P : σ → Prop} {Q : α → σ → Prop} {R : β → σ → Prop} {E : ε → Prop} {p : Prog σ ε α}

theorem ok (h : Spec P p Q E) {s s' : σ} {a : α} (hs : P s) (hr : p.run s = (.ok a, s')) :
    Q a s' := by
  have := h s hs
  rw [hr] at this
  exact this

theorem error (h : Spec P p Q E) {s s' : σ} {e : ε} (hs : P s) (hr : p.run s = (.error e, s')) :
    E e := by
  have := h s hs
  rw [hr] at this
  exact this

theorem intro (hok : ∀ s a s', P s → p.run s = (.ok a, s') → Q a s')
    (herr : ∀ s e s', P s → p.run s = (.error e, s') → E e) : Spec P p Q E := by
  intro s hs
  rcases hp : p.run s with ⟨r, s'⟩
  cases r with
  | ok a => exact hok s a s' hs hp
  | error e => exact herr s e s' hs hp

theorem bind {f : α → Prog σ ε β} (hp : Spec P p Q E) (hf : ∀ a, Spec (Q a) (f a) R E) :
    Spec P (p >>= f) R E := by
  intro s hs
  rw [run_bind]
  rcases hr : p.run s with ⟨r, s'⟩
  cases r with
  | ok a => exact hf a s' (hp.ok hs hr)
  | error e => exact hp.error hs hr

theorem imp {P' : σ → Prop} (h : Spec P p Q E) (hP : ∀ s, P' s → P s) : Spec P' p Q E :=
  fun s hs => h s (hP s hs)

theorem weakenFault {E' : ε → Prop} (h : Spec P p Q E) (hE : ∀ e, E e → E' e) : Spec P p Q E' := by
  refine intro ?_ ?_
  · intro s a s' hs hr
    exact h.ok hs hr
  · intro s e s' hs hr
    exact hE e (h.error hs hr)

theorem pure {a : α} (h : ∀ s, P s → Q a s) : Spec P (Pure.pure a : Prog σ ε α) Q E := h

theorem get {Q : σ → σ → Prop} (h : ∀ s, P s → Q s s) :
    Spec P (Prog.get : Prog σ ε σ) Q E := h

theorem modify {f : σ → σ} {Q : Unit → σ → Prop} (h : ∀ s, P s → Q () (f s)) :
    Spec P (Prog.modify f : Prog σ ε Unit) Q E := h

theorem fault {e : ε} (h : E e) : Spec P (Prog.fault e : Prog σ ε α) Q E := fun _ _ => h

theorem ensure {c : Bool} {e : ε} (h : E e) :
    Spec P (Prog.ensure c e : Prog σ ε Unit) (fun _ => P) E := by
  cases c with
  | true => exact fun _ hs => hs
  | false => exact fun _ _ => h

theorem require {o : Option α} {e : ε} (h : E e) :
    Spec P (Prog.require o e : Prog σ ε α) (fun _ => P) E := by
  cases o with
  | some a => exact fun _ hs => hs
  | none => exact fun _ _ => h

theorem ite {c : Prop} [Decidable c] {q : Prog σ ε α} (ht : Spec P p Q E) (hf : Spec P q Q E) :
    Spec P (if c then p else q) Q E := by
  by_cases hc : c
  · rw [if_pos hc]
    exact ht
  · rw [if_neg hc]
    exact hf

theorem forEach {I : σ → Prop} {l : List α} {body : α → Prog σ ε Unit}
    (h : ∀ a ∈ l, Spec I (body a) (fun _ => I) E) :
    Spec I (Prog.forEach l body) (fun _ => I) E := by
  induction l with
  | nil => exact Spec.pure fun _ hs => hs
  | cons a rest ih =>
    refine Spec.bind (h a List.mem_cons_self) fun _ => ih ?_
    intro b hb
    exact h b (List.mem_cons_of_mem a hb)

end Spec

/-! ## Programs that do not fault -/

/-- The program does not fault from here. -/
def Succeeds (p : Prog σ ε α) (s : σ) : Prop := ∃ a s', p.run s = (.ok a, s')

namespace Succeeds

variable {p : Prog σ ε α} {f : α → Prog σ ε β} {s s' : σ} {a : α} {e : ε}

theorem pure_iff : Succeeds (Pure.pure a : Prog σ ε α) s ↔ True :=
  ⟨fun _ => trivial, fun _ => ⟨a, s, rfl⟩⟩

theorem fault_iff : Succeeds (Prog.fault e : Prog σ ε α) s ↔ False := by
  constructor
  · rintro ⟨a, s', hrun⟩
    cases hrun
  · exact False.elim

theorem bind_iff : Succeeds (p >>= f) s ↔ ∃ a s', p.run s = (.ok a, s') ∧ Succeeds (f a) s' := by
  constructor
  · rintro ⟨b, s'', hrun⟩
    obtain ⟨a, s', hp, hf⟩ := bind_eq_ok.mp hrun
    exact ⟨a, s', hp, b, s'', hf⟩
  · rintro ⟨a, s', hp, b, s'', hf⟩
    exact ⟨b, s'', bind_eq_ok.mpr ⟨a, s', hp, hf⟩⟩

theorem bind_of_ok (h : p.run s = (.ok a, s')) : Succeeds (p >>= f) s ↔ Succeeds (f a) s' := by
  rw [Succeeds, bind_ok h]
  rfl

theorem bind_of_error (h : p.run s = (.error e, s')) : Succeeds (p >>= f) s ↔ False := by
  rw [Succeeds, bind_error h]
  constructor
  · rintro ⟨a, s', hrun⟩
    cases hrun
  · exact False.elim

theorem bind_congr {q : Prog σ ε α} (h : p.run s = q.run s) :
    Succeeds (p >>= f) s ↔ Succeeds (q >>= f) s := by
  simp only [Succeeds, run_bind, h]

/-- What comes after is of no concern, if it never faults. -/
theorem bind_total_iff (hf : ∀ a s, Succeeds (f a) s) : Succeeds (p >>= f) s ↔ Succeeds p s := by
  rw [bind_iff]
  constructor
  · rintro ⟨a, s', hp, -⟩
    exact ⟨a, s', hp⟩
  · rintro ⟨a, s', hp⟩
    exact ⟨a, s', hp, hf a s'⟩

theorem require_bind_iff {o : Option α} : Succeeds (Prog.require o e >>= f) s ↔
    ∃ a, o = some a ∧ Succeeds (f a) s := by
  cases o with
  | none => simp [Prog.require, bind_of_error (run_fault e s)]
  | some a => simp [Prog.require]

theorem ensure_iff {c : Bool} : Succeeds (Prog.ensure c e : Prog σ ε Unit) s ↔ c = true := by
  cases c with
  | false => simp [Prog.ensure, fault_iff]
  | true => simp [Prog.ensure, pure_iff]

end Succeeds

end Prog

end Rankd.Infra
