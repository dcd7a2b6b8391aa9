import CommandConsole.Library.Run

/-! # A call among other writers

A call that awaits runs in sections: each reads and writes the shared state at
one point, and the local state of the call says where the next one starts. Between
two sections the others may put any state in place. A run keeps the sections of
the call with the states before and after each.
-/
namespace Library
set_option autoImplicit false

variable {σ φ ι : Type}

structure Section (φ σ : Type) where
  phase : φ
  before : σ
  after : σ

inductive Turn (ι σ : Type) where
  | own (input : ι)
  | other (change : σ → σ)

structure Interleaving (φ σ : Type) where
  phase : φ
  store : σ
  sections : List (Section φ σ)

namespace Interleaving

def start (phase : φ) (store : σ) : Interleaving φ σ := ⟨phase, store, []⟩

/-- A finished call takes no further section. -/
def step (advance : ι → φ → σ → φ × σ) (finished : φ → Bool) (turn : Turn ι σ) (run : Interleaving φ σ) :
    Interleaving φ σ :=
  match turn with
  | .other change => { run with store := change run.store }
  | .own input =>
    if finished run.phase then run
    else
      { phase := (advance input run.phase run.store).1
        store := (advance input run.phase run.store).2
        sections := run.sections ++ [⟨run.phase, run.store, (advance input run.phase run.store).2⟩] }

variable {advance : ι → φ → σ → φ × σ} {finished : φ → Bool} {phase : φ} {store : σ} {run : Interleaving φ σ}

/-- What every section keeps about the phase and the sections so far, the others cannot break. -/
theorem invariant {P : φ → List (Section φ σ) → Prop} {guard : Turn ι σ → Interleaving φ σ → Prop}
    (h : Reaches (step advance finished) guard (start phase store) run) (hStart : P phase [])
    (hOwn : ∀ input phase store sections, finished phase = false → P phase sections →
      P (advance input phase store).1 (sections ++ [⟨phase, store, (advance input phase store).2⟩])) :
    P run.phase run.sections := by
  refine h.invariant (P := fun run => P run.phase run.sections) hStart fun turn run hRun _ => ?_
  cases turn with
  | other change => exact hRun
  | own input =>
    dsimp only [step]
    split
    · exact hRun
    · rename_i hOpen
      exact hOwn input run.phase run.store run.sections (eq_false_of_ne_true hOpen) hRun

/-- The turn leaves the view of the store as it is, unless it ends the wait of the call. -/
def Undisturbed {α : Type} (advance : ι → φ → σ → φ × σ) (finished waiting : φ → Bool) (view : σ → α)
    (turn : Turn ι σ) (run : Interleaving φ σ) : Prop :=
  waiting run.phase = true → waiting (step advance finished turn run).phase = true →
    view (step advance finished turn run).store = view run.store

/-- What a call finds out about the view when its wait begins still holds when each of its waiting sections starts. -/
theorem Undisturbed.holds {α : Type} {waiting : φ → Bool} {view : σ → α} {P : φ → α → Prop}
    (h : Reaches (step advance finished) (Undisturbed advance finished waiting view) (start phase store) run)
    (hStart : waiting phase = false)
    (hEnter : ∀ input phase store, waiting phase = false → waiting (advance input phase store).1 = true →
      P (advance input phase store).1 (view (advance input phase store).2))
    (hStay : ∀ input phase store, waiting phase = true → waiting (advance input phase store).1 = true →
      P phase (view store) → P (advance input phase store).1 (view store)) :
    ∀ part ∈ run.sections, waiting part.phase = true → P part.phase (view part.before) := by
  refine (h.invariant (P := fun run => (waiting run.phase = true → P run.phase (view run.store)) ∧
    ∀ part ∈ run.sections, waiting part.phase = true → P part.phase (view part.before)) ?_ ?_).2
  · refine ⟨fun hWaiting => ?_, fun part hPart => by cases hPart⟩
    rw [start, hStart] at hWaiting
    cases hWaiting
  · rintro turn run ⟨hNow, hParts⟩ hGuard
    cases turn with
    | other change =>
      refine ⟨fun hWaiting => ?_, hParts⟩
      have hView : view (change run.store) = view run.store := hGuard hWaiting hWaiting
      dsimp only [step]
      rw [hView]
      exact hNow hWaiting
    | own input =>
      rw [Undisturbed] at hGuard
      dsimp only [step] at hGuard ⊢
      split
      · exact ⟨hNow, hParts⟩
      · rename_i hOpen
        rw [if_neg hOpen] at hGuard
        refine ⟨fun hNext => ?_, fun part hPart hWaiting => ?_⟩
        · cases hWaiting : waiting run.phase with
          | false => exact hEnter input run.phase run.store hWaiting hNext
          | true =>
            rw [hGuard hWaiting hNext]
            exact hStay input run.phase run.store hWaiting hNext (hNow hWaiting)
        · rcases List.mem_append.mp hPart with hEarlier | hLast
          · exact hParts part hEarlier hWaiting
          · obtain rfl := List.mem_singleton.mp hLast
            exact hNow hWaiting

end Interleaving
end Library
