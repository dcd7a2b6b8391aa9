import CommandConsole.Library.Session

/-! # Sessions that may throw

A throw ends the session and leaves the state as it is: what earlier
transactions wrote stays. A triple speaks of both ways to end.
-/
namespace Library
set_option autoImplicit false

abbrev Process (env ε σ α : Type) : Type := ExceptT ε (Session env σ) α

namespace Process

variable {env ε σ τ α β : Type}

def ofSession (x : Session env σ α) : Process env ε σ α := ExceptT.lift x

/-- A session of the part `get s` of the state. -/
def zoom (get : σ → τ) (put : τ → σ → σ) (x : Session env τ α) : Session env σ α := fun clock n s =>
  ((x clock n (get s)).1, (x clock n (get s)).2.1, put (x clock n (get s)).2.2 s)

def modify (change : σ → σ) : Process env ε σ Unit := fun _ n s => (.ok (), n, change s)

def read (f : σ → α) : Process env ε σ α := fun _ n s => (.ok (f s), n, s)

def ask : Process env ε σ env := fun clock n s => (.ok (clock n), n + 1, s)

/-- The number of the next instant. -/
def index : Process env ε σ Nat := fun _ n s => (.ok n, n, s)

theorem bind_apply (x : Process env ε σ α) (f : α → Process env ε σ β) (clock : Nat → env) (n : Nat) (s : σ) :
    (x >>= f) clock n s =
      match x clock n s with
      | (.ok a, n', s') => f a clock n' s'
      | (.error err, n', s') => (.error err, n', s') := by
  change ExceptT.bindCont f (x clock n s).1 clock (x clock n s).2.1 (x clock n s).2.2 = _
  obtain ⟨outcome, n', s'⟩ := x clock n s
  cases outcome <;> rfl

theorem tryCatch_apply (x : Process env ε σ α) (handle : ε → Process env ε σ α) (clock : Nat → env) (n : Nat)
    (s : σ) :
    (tryCatchThe ε x handle) clock n s =
      match x clock n s with
      | (.ok a, n', s') => (.ok a, n', s')
      | (.error err, n', s') => handle err clock n' s' := by
  change (ExceptT.tryCatch x handle) clock n s = _
  unfold ExceptT.tryCatch
  refine (Session.bind_apply _ _ clock n s).trans ?_
  obtain ⟨outcome, n', s'⟩ := x clock n s
  cases outcome <;> rfl

/-- From `P`, a return `a` meets `Q a` and a throw meets `E`. -/
def Triple (P : σ → Prop) (x : Process env ε σ α) (Q : α → σ → Prop) (E : σ → Prop) : Prop :=
  ∀ clock n s, P s →
    match x clock n s with
    | (.ok a, _, s') => Q a s'
    | (.error _, _, s') => E s'

section Rules

variable {P : σ → Prop} {Q Q' : α → σ → Prop} {E E' : σ → Prop}

theorem Triple.pure (a : α) (h : ∀ s, P s → Q a s) : Triple P (Pure.pure a : Process env ε σ α) Q E :=
  fun _ _ s hPre => h s hPre

theorem Triple.throw (err : ε) (h : ∀ s, P s → E s) :
    Triple P (throwThe ε err : Process env ε σ α) Q E := fun _ _ s hPre => h s hPre

theorem Triple.bind {x : Process env ε σ α} {f : α → Process env ε σ β} {R : β → σ → Prop}
    (hx : Triple P x Q E) (hf : ∀ a, Triple (Q a) (f a) R E) : Triple P (x >>= f) R E := by
  intro clock n s hPre
  have hFirst := hx clock n s hPre
  rw [bind_apply]
  cases hRun : x clock n s with
  | mk outcome rest =>
    obtain ⟨n', s'⟩ := rest
    rw [hRun] at hFirst
    cases outcome with
    | ok a => exact hf a clock n' s' hFirst
    | error err => exact hFirst

theorem Triple.tryCatch {x : Process env ε σ α} {handle : ε → Process env ε σ α}
    (hx : Triple P x Q E) (hHandle : ∀ err, Triple E (handle err) Q E') :
    Triple P (tryCatchThe ε x handle) Q E' := by
  intro clock n s hPre
  have hFirst := hx clock n s hPre
  rw [tryCatch_apply]
  cases hRun : x clock n s with
  | mk outcome rest =>
    obtain ⟨n', s'⟩ := rest
    rw [hRun] at hFirst
    cases outcome with
    | ok a => exact hFirst
    | error err => exact hHandle err clock n' s' hFirst

theorem Triple.ite {c : Prop} [Decidable c] {x y : Process env ε σ α} (hx : c → Triple P x Q E)
    (hy : ¬c → Triple P y Q E) : Triple P (if c then x else y) Q E := by
  split
  · rename_i h
    exact hx h
  · rename_i h
    exact hy h

/-- What the state does not decide may be used as a fact. -/
theorem Triple.fact {φ : Prop} {x : Process env ε σ α} (h : φ → Triple P x Q E) :
    Triple (fun s => P s ∧ φ) x Q E := fun clock n s hPre => h hPre.2 clock n s hPre.1

theorem Triple.strengthen {P' : σ → Prop} {x : Process env ε σ α} (h : Triple P x Q E) (hP : ∀ s, P' s → P s) :
    Triple P' x Q E := fun clock n s hPre => h clock n s (hP s hPre)

/-- What holds of the state however the session ends. -/
theorem Triple.state {x : Process env ε σ α} (h : Triple P x (fun _ => E) E) (clock : Nat → env) (n : Nat) {s : σ}
    (hPre : P s) : E (x clock n s).2.2 := by
  have hRun := h clock n s hPre
  split at hRun
  · rename_i hEq
    rw [hEq]
    exact hRun
  · rename_i hEq
    rw [hEq]
    exact hRun

theorem Triple.weaken {x : Process env ε σ α} (h : Triple P x Q E) (hQ : ∀ a s, Q a s → Q' a s)
    (hE : ∀ s, E s → E' s) : Triple P x Q' E' := by
  intro clock n s hPre
  have hRun := h clock n s hPre
  split at hRun
  · exact hQ _ _ hRun
  · exact hE _ hRun

theorem Triple.modify {change : σ → σ} {Q : Unit → σ → Prop} (h : ∀ s, P s → Q () (change s)) :
    Triple P (modify change : Process env ε σ Unit) Q E := fun _ _ s hPre => h s hPre

theorem Triple.read {f : σ → α} (h : ∀ s, P s → Q (f s) s) : Triple P (read f : Process env ε σ α) Q E :=
  fun _ _ s hPre => h s hPre

theorem Triple.ask {Q : env → σ → Prop} (h : ∀ e s, P s → Q e s) :
    Triple P (ask : Process env ε σ env) Q E := fun clock n s hPre => h (clock n) s hPre

end Rules

/-- `I` survives, and every value that is returned meets `φ`. -/
def Yields (I : σ → Prop) (x : Process env ε σ α) (φ : α → Prop) : Prop :=
  Triple I x (fun a s => I s ∧ φ a) I

section Yields

variable {I : σ → Prop} {φ : α → Prop} {ψ : β → Prop}

theorem Yields.pure {a : α} (h : φ a) : Yields I (Pure.pure a : Process env ε σ α) φ :=
  Triple.pure a fun _ hI => ⟨hI, h⟩

theorem Yields.throw (err : ε) : Yields I (throwThe ε err : Process env ε σ α) φ :=
  Triple.throw err fun _ hI => hI

theorem Yields.bind {x : Process env ε σ α} {f : α → Process env ε σ β} (hx : Yields I x φ)
    (hf : ∀ a, φ a → Yields I (f a) ψ) : Yields I (x >>= f) ψ :=
  Triple.bind hx fun a clock n s hPre => hf a hPre.2 clock n s hPre.1

theorem Yields.ite {c : Prop} [Decidable c] {x y : Process env ε σ α} (hx : c → Yields I x φ)
    (hy : ¬c → Yields I y φ) : Yields I (if c then x else y) φ := Triple.ite hx hy

theorem Yields.weaken {φ' : α → Prop} {x : Process env ε σ α} (h : Yields I x φ) (hφ : ∀ a, φ a → φ' a) :
    Yields I x φ' := Triple.weaken h (fun a _ hQ => ⟨hQ.1, hφ a hQ.2⟩) fun _ hE => hE

theorem Yields.tryCatch {x : Process env ε σ α} {handle : ε → Process env ε σ α} (hx : Yields I x φ)
    (hHandle : ∀ err, Yields I (handle err) φ) : Yields I (tryCatchThe ε x handle) φ :=
  Triple.tryCatch hx hHandle

end Yields

/-- A triple whose third part also speaks of what was thrown. -/
def Ends (P : σ → Prop) (x : Process env ε σ α) (Q : α → σ → Prop) (E : ε → σ → Prop) : Prop :=
  ∀ clock n s, P s →
    match x clock n s with
    | (.ok a, _, s') => Q a s'
    | (.error err, _, s') => E err s'

section Ends

variable {P : σ → Prop} {Q Q' : α → σ → Prop} {E E' : ε → σ → Prop}

theorem Ends.pure (a : α) (h : ∀ s, P s → Q a s) : Ends P (Pure.pure a : Process env ε σ α) Q E :=
  fun _ _ s hPre => h s hPre

theorem Ends.throw (err : ε) (h : ∀ s, P s → E err s) :
    Ends P (throwThe ε err : Process env ε σ α) Q E := fun _ _ s hPre => h s hPre

theorem Ends.bind {x : Process env ε σ α} {f : α → Process env ε σ β} {R : β → σ → Prop}
    (hx : Ends P x Q E) (hf : ∀ a, Ends (Q a) (f a) R E) : Ends P (x >>= f) R E := by
  intro clock n s hPre
  have hFirst := hx clock n s hPre
  rw [bind_apply]
  cases hRun : x clock n s with
  | mk outcome rest =>
    obtain ⟨n', s'⟩ := rest
    rw [hRun] at hFirst
    cases outcome with
    | ok a => exact hf a clock n' s' hFirst
    | error err => exact hFirst

theorem Ends.tryCatch {x : Process env ε σ α} {handle : ε → Process env ε σ α}
    (hx : Ends P x Q E) (hHandle : ∀ err, Ends (E err) (handle err) Q E') :
    Ends P (tryCatchThe ε x handle) Q E' := by
  intro clock n s hPre
  have hFirst := hx clock n s hPre
  rw [tryCatch_apply]
  cases hRun : x clock n s with
  | mk outcome rest =>
    obtain ⟨n', s'⟩ := rest
    rw [hRun] at hFirst
    cases outcome with
    | ok a => exact hFirst
    | error err => exact hHandle err clock n' s' hFirst

theorem Ends.ite {c : Prop} [Decidable c] {x y : Process env ε σ α} (hx : c → Ends P x Q E)
    (hy : ¬c → Ends P y Q E) : Ends P (if c then x else y) Q E := by
  split
  · rename_i h
    exact hx h
  · rename_i h
    exact hy h

theorem Ends.weaken {P' : σ → Prop} {x : Process env ε σ α} (h : Ends P x Q E) (hP : ∀ s, P' s → P s)
    (hQ : ∀ a s, Q a s → Q' a s) (hE : ∀ err s, E err s → E' err s) : Ends P' x Q' E' := by
  intro clock n s hPre
  have hRun := h clock n s (hP s hPre)
  split at hRun
  · exact hQ _ _ hRun
  · exact hE _ _ hRun

/-- One starting state at a time. -/
theorem Ends.at {x : Process env ε σ α} (h : ∀ s, P s → Ends (fun s' => s' = s) x Q E) : Ends P x Q E :=
  fun clock n s hPre => h s hPre clock n s rfl

theorem Ends.modify {change : σ → σ} {Q : Unit → σ → Prop} (h : ∀ s, P s → Q () (change s)) :
    Ends P (modify change : Process env ε σ Unit) Q E := fun _ _ s hPre => h s hPre

theorem Ends.read {f : σ → α} (h : ∀ s, P s → Q (f s) s) : Ends P (read f : Process env ε σ α) Q E :=
  fun _ _ s hPre => h s hPre

theorem Ends.ask {Q : env → σ → Prop} (h : ∀ e s, P s → Q e s) :
    Ends P (ask : Process env ε σ env) Q E := fun clock n s hPre => h (clock n) s hPre

end Ends

end Process
end Library
