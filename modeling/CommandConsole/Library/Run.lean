import Mathlib.Order.Defs.Unbundled

/-! # Guarded runs of a deterministic step function

An operation carries everything that its step depends on, its caller and the
clock included, so a sequence of operations is one interleaving of any number
of callers. The guard restricts which operations a run may take in which state.
-/
namespace Library
set_option autoImplicit false

variable {ω σ : Type}

/-- The states of the runs from `start` whose operations all meet the guard. -/
inductive Reaches (step : ω → σ → σ) (guard : ω → σ → Prop) (start : σ) : σ → Prop where
  | refl : Reaches step guard start start
  | step {s : σ} (op : ω) (h : Reaches step guard start s) (hGuard : guard op s) :
      Reaches step guard start (step op s)

namespace Reaches

variable {step : ω → σ → σ} {guard : ω → σ → Prop} {start s : σ}

theorem trans {t : σ} (h : Reaches step guard start s) (h' : Reaches step guard s t) :
    Reaches step guard start t := by
  induction h' with
  | refl => exact h
  | step op _ hGuard ih => exact .step op ih hGuard

theorem mono {guard' : ω → σ → Prop} (h : Reaches step guard start s)
    (hGuard : ∀ op t, guard op t → guard' op t) : Reaches step guard' start s := by
  induction h with
  | refl => exact .refl
  | step op _ hOp ih => exact .step op ih (hGuard op _ hOp)

/-- An invariant of every guarded step holds in every state of a guarded run. -/
theorem invariant {P : σ → Prop} (h : Reaches step guard start s) (hStart : P start)
    (hStep : ∀ op t, P t → guard op t → P (step op t)) : P s := by
  induction h with
  | refl => exact hStart
  | step op _ hGuard ih => exact hStep op _ ih hGuard

/-- A preorder that every guarded step respects relates the ends of a guarded run. -/
theorem relates {R : σ → σ → Prop} [Std.Refl R] [IsTrans σ R] (h : Reaches step guard start s)
    (hStep : ∀ op t, guard op t → R t (step op t)) : R start s := by
  induction h with
  | refl => exact Std.Refl.refl start
  | step op _ hGuard ih => exact trans_of R ih (hStep op _ hGuard)

/-- The same with an invariant that the steps may use. -/
theorem relates_of_invariant {R : σ → σ → Prop} [Std.Refl R] [IsTrans σ R] {P : σ → Prop}
    (h : Reaches step guard start s) (hStart : P start)
    (hKeep : ∀ op t, P t → guard op t → P (step op t))
    (hStep : ∀ op t, P t → guard op t → R t (step op t)) : R start s := by
  induction h with
  | refl => exact Std.Refl.refl start
  | step op hRun hGuard ih =>
    exact trans_of R ih (hStep op _ (hRun.invariant hStart hKeep) hGuard)

/-- What every step from a reachable state respects relates the later states to the earlier ones. -/
theorem relates_later {R : σ → σ → Prop} [Std.Refl R] [IsTrans σ R] {t : σ} (h : Reaches step guard start s)
    (hLater : Reaches step guard s t)
    (hStep : ∀ op u, Reaches step guard start u → guard op u → R u (step op u)) : R s t := by
  induction hLater with
  | refl => exact Std.Refl.refl s
  | step op hRun hGuard ih => exact trans_of R ih (hStep op _ (h.trans hRun) hGuard)

end Reaches

/-- The state after a list of operations. -/
def runAll (step : ω → σ → σ) (s : σ) (ops : List ω) : σ := ops.foldl (fun t op => step op t) s

theorem reaches_runAll (step : ω → σ → σ) (s : σ) (ops : List ω) :
    Reaches step (fun _ _ => True) s (runAll step s ops) := by
  induction ops generalizing s with
  | nil => exact .refl
  | cons op ops ih => exact Reaches.trans (.step op .refl trivial) (ih (step op s))

/-- Every operation of the list meets the guard in the state that it finds. -/
def GuardedAll (step : ω → σ → σ) (guard : ω → σ → Prop) : σ → List ω → Prop
  | _, [] => True
  | s, op :: ops => guard op s ∧ GuardedAll step guard (step op s) ops

instance GuardedAll.decidable (step : ω → σ → σ) (guard : ω → σ → Prop) [∀ op s, Decidable (guard op s)] :
    ∀ s ops, Decidable (GuardedAll step guard s ops)
  | _, [] => inferInstanceAs (Decidable True)
  | s, op :: ops =>
    have := GuardedAll.decidable step guard (step op s) ops
    inferInstanceAs (Decidable (guard op s ∧ GuardedAll step guard (step op s) ops))

theorem GuardedAll.reaches {step : ω → σ → σ} {guard : ω → σ → Prop} {s : σ} {ops : List ω}
    (h : GuardedAll step guard s ops) : Reaches step guard s (runAll step s ops) := by
  induction ops generalizing s with
  | nil => exact .refl
  | cons op ops ih => exact Reaches.trans (.step op .refl h.1) (ih h.2)

end Library
