import Mathlib.Order.Defs.Unbundled

/-! # Statement sequences run inside one transaction

A `Tx` reads its environment and the state, and either throws or returns a
value with the state its statements left. `commit` keeps that state on a normal
return and the state from before the first statement after a throw.
-/
namespace Library
set_option autoImplicit false

/-- The statements of one transaction over states `σ`, throwing `ε`. -/
def Tx (env ε σ α : Type) : Type := env → σ → Except ε (α × σ)

namespace Tx

variable {env ε σ α β : Type}

protected def pure (a : α) : Tx env ε σ α := fun _ s => .ok (a, s)

protected def bind (x : Tx env ε σ α) (f : α → Tx env ε σ β) : Tx env ε σ β := fun e s =>
  match x e s with
  | .ok (a, s') => f a e s'
  | .error err => .error err

instance : Monad (Tx env ε σ) where
  pure := Tx.pure
  bind := Tx.bind

def throw (err : ε) : Tx env ε σ α := fun _ _ => .error err

def ask : Tx env ε σ env := fun e s => .ok (e, s)

def get : Tx env ε σ σ := fun _ s => .ok (s, s)

def modify (change : σ → σ) : Tx env ε σ Unit := fun _ s => .ok ((), change s)

/-- A write that a constraint may refuse. -/
def write (change : σ → Except ε σ) : Tx env ε σ Unit := fun _ s =>
  match change s with
  | .ok s' => .ok ((), s')
  | .error err => .error err

def forEach (f : β → Tx env ε σ Unit) : List β → Tx env ε σ Unit
  | [] => Tx.pure ()
  | item :: items => Tx.bind (f item) fun _ => forEach f items

/-- A `catch` that throws again under another name. -/
def mapThrow (f : ε → ε) (x : Tx env ε σ α) : Tx env ε σ α := fun e s =>
  match x e s with
  | .ok result => .ok result
  | .error err => .error (f err)

/-- BEGIN .. COMMIT: a throw rolls back. -/
def commit (x : Tx env ε σ α) (e : env) (s : σ) : Except ε α × σ :=
  match x e s with
  | .ok (a, s') => (.ok a, s')
  | .error err => (.error err, s)

@[simp] theorem pure_apply (a : α) (e : env) (s : σ) :
    (pure a : Tx env ε σ α) e s = .ok (a, s) := rfl

@[simp] theorem throw_apply (err : ε) (e : env) (s : σ) :
    (throw err : Tx env ε σ α) e s = .error err := rfl

@[simp] theorem ask_apply (e : env) (s : σ) : (ask : Tx env ε σ env) e s = .ok (e, s) := rfl

@[simp] theorem get_apply (e : env) (s : σ) : (get : Tx env ε σ σ) e s = .ok (s, s) := rfl

@[simp] theorem modify_apply (change : σ → σ) (e : env) (s : σ) :
    (modify change : Tx env ε σ Unit) e s = .ok ((), change s) := rfl

theorem bind_apply (x : Tx env ε σ α) (f : α → Tx env ε σ β) (e : env) (s : σ) :
    (x >>= f) e s = match x e s with
      | .ok (a, s') => f a e s'
      | .error err => .error err := rfl

theorem bind_of_ok {x : Tx env ε σ α} {f : α → Tx env ε σ β} {e : env} {s s' : σ} {a : α}
    (h : x e s = .ok (a, s')) : (x >>= f) e s = f a e s' := by
  rw [bind_apply, h]

theorem bind_of_error {x : Tx env ε σ α} {f : α → Tx env ε σ β} {e : env} {s : σ} {err : ε}
    (h : x e s = .error err) : (x >>= f) e s = .error err := by
  rw [bind_apply, h]

@[simp] theorem pure_bind (a : α) (f : α → Tx env ε σ β) : (pure a >>= f : Tx env ε σ β) = f a := rfl

@[simp] theorem get_bind (f : σ → Tx env ε σ β) (e : env) (s : σ) :
    ((get : Tx env ε σ σ) >>= f) e s = f s e s := rfl

@[simp] theorem ask_bind (f : env → Tx env ε σ β) (e : env) (s : σ) :
    ((ask : Tx env ε σ env) >>= f) e s = f e e s := rfl

@[simp] theorem modify_bind (change : σ → σ) (f : Unit → Tx env ε σ β) (e : env) (s : σ) :
    ((modify change : Tx env ε σ Unit) >>= f) e s = f () e (change s) := rfl

@[simp] theorem throw_bind (err : ε) (f : α → Tx env ε σ β) (e : env) (s : σ) :
    ((throw err : Tx env ε σ α) >>= f) e s = .error err := rfl

/-- Inversion of a successful sequence: both parts succeed. -/
theorem bind_eq_ok {x : Tx env ε σ α} {f : α → Tx env ε σ β} {e : env} {s s'' : σ} {b : β} :
    (x >>= f) e s = .ok (b, s'') ↔ ∃ a s', x e s = .ok (a, s') ∧ f a e s' = .ok (b, s'') := by
  rw [bind_apply]
  cases hx : x e s with
  | error err => simp
  | ok result =>
    obtain ⟨a, s'⟩ := result
    constructor
    · intro h
      exact ⟨a, s', rfl, h⟩
    · rintro ⟨_, _, hEq, h⟩
      cases hEq
      exact h

theorem write_eq_ok {change : σ → Except ε σ} {e : env} {s s' : σ} {u : Unit} :
    (write change : Tx env ε σ Unit) e s = .ok (u, s') ↔ change s = .ok s' := by
  unfold write
  cases change s with
  | error err => simp
  | ok next => simp

/-- Every successful run of `x` relates its first state to its last one. -/
def Respects (R : σ → σ → Prop) (x : Tx env ε σ α) : Prop :=
  ∀ e s a s', x e s = .ok (a, s') → R s s'

/-- `x` leaves the projection `f` of the state unchanged. -/
def Keeps {τ : Type} (f : σ → τ) (x : Tx env ε σ α) : Prop := Respects (fun s s' => f s' = f s) x

section Rules

variable {R : σ → σ → Prop}

theorem Respects.pure [Std.Refl R] (a : α) : Respects R (Pure.pure a : Tx env ε σ α) := by
  intro e s b s' h
  cases h
  exact Std.Refl.refl s

theorem Respects.throw (err : ε) : Respects R (throw err : Tx env ε σ α) := by
  intro e s b s' h
  cases h

theorem Respects.ask [Std.Refl R] : Respects R (ask : Tx env ε σ env) := by
  intro e s b s' h
  cases h
  exact Std.Refl.refl s

theorem Respects.get [Std.Refl R] : Respects R (get : Tx env ε σ σ) := by
  intro e s b s' h
  cases h
  exact Std.Refl.refl s

theorem Respects.modify {change : σ → σ} (h : ∀ s, R s (change s)) :
    Respects R (modify change : Tx env ε σ Unit) := by
  intro e s b s' hRun
  cases hRun
  exact h s

theorem Respects.write {change : σ → Except ε σ} (h : ∀ s s', change s = .ok s' → R s s') :
    Respects R (write change : Tx env ε σ Unit) := by
  intro e s b s' hRun
  exact h s s' (write_eq_ok.mp hRun)

theorem Respects.bind [IsTrans σ R] {x : Tx env ε σ α} {f : α → Tx env ε σ β}
    (hx : Respects R x) (hf : ∀ a, Respects R (f a)) : Respects R (x >>= f) := by
  intro e s b s'' h
  obtain ⟨a, s', hFirst, hRest⟩ := bind_eq_ok.mp h
  exact trans_of R (hx e s a s' hFirst) (hf a e s' b s'' hRest)

theorem mapThrow_eq_ok {x : Tx env ε σ α} {f : ε → ε} {e : env} {s s' : σ} {a : α} :
    mapThrow f x e s = .ok (a, s') ↔ x e s = .ok (a, s') := by
  unfold Tx.mapThrow
  split
  · rename_i result hx
    rw [hx]
  · rename_i err hx
    rw [hx]
    constructor
    · rintro ⟨⟩
    · rintro ⟨⟩

theorem Respects.mapThrow {x : Tx env ε σ α} (h : Respects R x) (f : ε → ε) : Respects R (mapThrow f x) :=
  fun e s a s' hRun => h e s a s' (mapThrow_eq_ok.mp hRun)

theorem Respects.forEach [Std.Refl R] [IsTrans σ R] {f : β → Tx env ε σ Unit}
    (h : ∀ item, Respects R (f item)) (items : List β) : Respects R (forEach f items) := by
  induction items with
  | nil => exact .pure ()
  | cons item items ih => exact .bind (h item) fun _ => ih

theorem Respects.ite {c : Prop} [Decidable c] {x y : Tx env ε σ α} (hx : Respects R x)
    (hy : Respects R y) : Respects R (if c then x else y) := by
  split
  · exact hx
  · exact hy

theorem Respects.commit [Std.Refl R] {x : Tx env ε σ α} (h : Respects R x) (e : env) (s : σ) :
    R s (commit x e s).2 := by
  unfold Tx.commit
  cases hx : x e s with
  | error err => exact Std.Refl.refl s
  | ok result => exact h e s result.1 result.2 hx

/-- What every item keeps, the loop keeps. -/
theorem forEach_keeps {f : β → Tx env ε σ Unit} {P : σ → Prop} {items : List β} {e : env} {s s' : σ} {u : Unit}
    (h : ∀ item ∈ items, ∀ s u s', f item e s = .ok (u, s') → P s → P s')
    (hRun : forEach f items e s = .ok (u, s')) (hs : P s) : P s' := by
  induction items generalizing s with
  | nil =>
    cases hRun
    exact hs
  | cons item items ih =>
    obtain ⟨v, mid, hItem, hRest⟩ := bind_eq_ok.mp hRun
    exact ih (fun other hOther => h other (List.mem_cons_of_mem _ hOther)) hRest
      (h item List.mem_cons_self s v mid hItem hs)

/-- A loop of checks that pass leaves the state alone. -/
theorem forEach_checks {f : β → Tx env ε σ Unit} {P : β → σ → Prop} {items : List β} {e : env} {s s' : σ} {u : Unit}
    (h : ∀ item s u s', f item e s = .ok (u, s') → s' = s ∧ P item s)
    (hRun : forEach f items e s = .ok (u, s')) : s' = s ∧ ∀ item ∈ items, P item s := by
  induction items generalizing s with
  | nil =>
    cases hRun
    exact ⟨rfl, fun item hItem => by cases hItem⟩
  | cons item items ih =>
    obtain ⟨v, mid, hItem, hRest⟩ := bind_eq_ok.mp hRun
    obtain ⟨rfl, hHead⟩ := h item s v mid hItem
    obtain ⟨rfl, hTail⟩ := ih hRest
    exact ⟨rfl, List.forall_mem_cons.mpr ⟨hHead, hTail⟩⟩

end Rules

instance {τ : Type} (f : σ → τ) : Std.Refl fun s s' : σ => f s' = f s := ⟨fun _ => rfl⟩

instance {τ : Type} (f : σ → τ) : IsTrans σ fun s s' => f s' = f s := ⟨fun _ _ _ h h' => h'.trans h⟩

end Tx
end Library
