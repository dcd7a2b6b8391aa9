import CommandConsole.Library.Transaction

/-! # Programs that run several transactions

A session reads and writes the state through transactions, each at its own
instant: `clock n` is the environment of the n-th one. Nothing keeps the state
locked between them.
-/
namespace Library
set_option autoImplicit false

def Session (env σ α : Type) : Type := (Nat → env) → Nat → σ → α × Nat × σ

namespace Session

variable {env ε σ α β : Type}

instance : Monad (Session env σ) where
  pure a := fun _ n s => (a, n, s)
  bind x f := fun clock n s => f (x clock n s).1 clock (x clock n s).2.1 (x clock n s).2.2

def read (f : σ → α) : Session env σ α := fun _ n s => (f s, n, s)

def ask : Session env σ env := fun clock n s => (clock n, n + 1, s)

def commit (x : Tx env ε σ α) : Session env σ (Except ε α) := fun clock n s =>
  ((Tx.commit x (clock n) s).1, n + 1, (Tx.commit x (clock n) s).2)

/-- The value and the last state of a session that starts at the first instant. -/
def run (x : Session env σ α) (clock : Nat → env) (s : σ) : α × σ := ((x clock 0 s).1, (x clock 0 s).2.2)

@[simp] theorem pure_apply (a : α) (clock : Nat → env) (n : Nat) (s : σ) :
    (pure a : Session env σ α) clock n s = (a, n, s) := rfl

@[simp] theorem read_bind (f : σ → α) (g : α → Session env σ β) (clock : Nat → env) (n : Nat) (s : σ) :
    (read f >>= g) clock n s = g (f s) clock n s := rfl

@[simp] theorem ask_bind (g : env → Session env σ β) (clock : Nat → env) (n : Nat) (s : σ) :
    (ask >>= g) clock n s = g (clock n) clock (n + 1) s := rfl

theorem bind_apply (x : Session env σ α) (f : α → Session env σ β) (clock : Nat → env) (n : Nat) (s : σ) :
    (x >>= f) clock n s = f (x clock n s).1 clock (x clock n s).2.1 (x clock n s).2.2 := rfl

@[simp] theorem commit_bind (x : Tx env ε σ α) (f : Except ε α → Session env σ β) (clock : Nat → env)
    (n : Nat) (s : σ) :
    (commit x >>= f) clock n s =
      f (Tx.commit x (clock n) s).1 clock (n + 1) (Tx.commit x (clock n) s).2 := rfl

/-- Every run of the session relates its first state to its last one. -/
def Respects (R : σ → σ → Prop) (x : Session env σ α) : Prop := ∀ clock n s, R s (x clock n s).2.2

section Rules

variable {R : σ → σ → Prop}

theorem Respects.pure [Std.Refl R] (a : α) : Respects R (Pure.pure a : Session env σ α) :=
  fun _ _ s => Std.Refl.refl s

theorem Respects.read [Std.Refl R] (f : σ → α) : Respects R (read f : Session env σ α) :=
  fun _ _ s => Std.Refl.refl s

theorem Respects.ask [Std.Refl R] : Respects R (ask : Session env σ env) := fun _ _ s => Std.Refl.refl s

theorem Respects.bind [IsTrans σ R] {x : Session env σ α} {f : α → Session env σ β}
    (hx : Respects R x) (hf : ∀ a, Respects R (f a)) : Respects R (x >>= f) := by
  intro clock n s
  rw [bind_apply]
  exact trans_of R (hx clock n s) (hf _ clock _ _)

theorem Respects.ite {c : Prop} [Decidable c] {x y : Session env σ α} (hx : Respects R x) (hy : Respects R y) :
    Respects R (if c then x else y) := by
  split
  · exact hx
  · exact hy

end Rules

/-- The runs from the state `s` alone. -/
def RespectsAt (R : σ → σ → Prop) (s : σ) (x : Session env σ α) : Prop := ∀ clock n, R s (x clock n s).2.2

section RulesAt

variable {R : σ → σ → Prop} {s : σ}

theorem Respects.at {x : Session env σ α} (h : Respects R x) (s : σ) : RespectsAt R s x :=
  fun clock n => h clock n s

theorem RespectsAt.read_bind {f : σ → α} {g : α → Session env σ β} (h : RespectsAt R s (g (f s))) :
    RespectsAt R s (read f >>= g) := h

theorem RespectsAt.bind [IsTrans σ R] {x : Session env σ α} {f : α → Session env σ β}
    (hx : RespectsAt R s x) (hf : ∀ clock n, RespectsAt R (x clock n s).2.2 (f (x clock n s).1)) :
    RespectsAt R s (x >>= f) :=
  fun clock n => trans_of R (hx clock n) (hf clock n clock _)

theorem RespectsAt.ite {c : Prop} [Decidable c] {x y : Session env σ α} (hx : RespectsAt R s x)
    (hy : RespectsAt R s y) : RespectsAt R s (if c then x else y) := by
  split
  · exact hx
  · exact hy

end RulesAt

end Session
end Library
