import CommandConsole.Library.Digraph

/-! # Depth-first sweep with an active path

A sweep visits every node once. It keeps the nodes whose visit has not ended and
the edges that led to the current one, and reports each node that it meets again
while it is active. The recursion is as deep as there are nodes with edges, so a
larger bound on its depth changes nothing.
-/
namespace Library
set_option autoImplicit false

open Relation (TransGen)

variable {V E ρ : Type}

structure DepthFirst (V E ρ : Type) where
  edges : V → List E
  target : E → V
  found : V → List E → ρ → ρ

structure Sweep (V E ρ : Type) where
  visited : List V
  active : List V
  path : List E
  log : ρ

namespace DepthFirst

variable [DecidableEq V]

def enter (v : V) (s : Sweep V E ρ) : Sweep V E ρ :=
  { s with visited := v :: s.visited, active := v :: s.active }

def leave (v : V) (s : Sweep V E ρ) : Sweep V E ρ := { s with active := s.active.erase v }

def push (e : E) (s : Sweep V E ρ) : Sweep V E ρ := { s with path := s.path ++ [e] }

def pop (s : Sweep V E ρ) : Sweep V E ρ := { s with path := s.path.dropLast }

def visit (d : DepthFirst V E ρ) : Nat → V → Sweep V E ρ → Sweep V E ρ
  | 0, _, s => s
  | depth + 1, v, s =>
    if v ∈ s.active then { s with log := d.found v s.path s.log }
    else if v ∈ s.visited then s
    else leave v ((d.edges v).foldl (fun s e => pop (d.visit depth (d.target e) (push e s))) (enter v s))

def sweep (d : DepthFirst V E ρ) (depth : Nat) (roots : List V) (log : ρ) : ρ :=
  (roots.foldl (fun s v => d.visit depth v s) ⟨[], [], [], log⟩).log

def Leads (d : DepthFirst V E ρ) (v w : V) : Prop := ∃ e ∈ d.edges v, d.target e = w

/-- One visit of a node that is neither active nor visited, as a fold over some of its edges. -/
theorem foldl_visit (d : DepthFirst V E ρ) (depth : Nat) {P : Sweep V E ρ → Prop} (edges : List E)
    (s : Sweep V E ρ) (hStart : P s)
    (hEdge : ∀ e ∈ edges, ∀ t, P t → P (pop (d.visit depth (d.target e) (push e t)))) :
    P (edges.foldl (fun s e => pop (d.visit depth (d.target e) (push e s))) s) := by
  induction edges generalizing s with
  | nil => exact hStart
  | cons e edges ih =>
    refine ih _ (hEdge e (List.mem_cons_self ..) s hStart) fun other hOther => ?_
    exact hEdge other (List.mem_cons_of_mem _ hOther)

/-- Without a cycle no node is met while it is active. -/
theorem visit_of_acyclic {d : DepthFirst V E ρ} (h : ∀ v, ¬ TransGen d.Leads v v) (depth : Nat) (v : V)
    (s : Sweep V E ρ) (hActive : ∀ u ∈ s.active, TransGen d.Leads u v) :
    (d.visit depth v s).log = s.log ∧ (d.visit depth v s).active = s.active := by
  induction depth generalizing v s with
  | zero => exact ⟨rfl, rfl⟩
  | succ depth ih =>
    rw [visit]
    split
    · rename_i hMet
      exact absurd (hActive v hMet) (h v)
    · split
      · exact ⟨rfl, rfl⟩
      · have hFold := foldl_visit d depth (d.edges v) (enter v s)
          (P := fun t => t.log = s.log ∧ t.active = v :: s.active) ⟨rfl, rfl⟩ ?_
        · refine ⟨hFold.1, ?_⟩
          rw [leave, hFold.2, List.erase_cons_head]
        · rintro e hEdge t ⟨hLog, hNodes⟩
          have hInner := ih (d.target e) (push e t) fun u hu => ?_
          · exact ⟨hInner.1.trans hLog, hInner.2.trans hNodes⟩
          · rw [push, hNodes] at hu
            have hLeads : d.Leads v (d.target e) := ⟨e, hEdge, rfl⟩
            rcases List.mem_cons.mp hu with rfl | hu
            · exact .single hLeads
            · exact (hActive u hu).tail hLeads

theorem sweep_of_acyclic {d : DepthFirst V E ρ} (h : ∀ v, ¬ TransGen d.Leads v v) (depth : Nat)
    (roots : List V) (log : ρ) : d.sweep depth roots log = log := by
  have hRoots : ∀ (s : Sweep V E ρ), s.log = log → s.active = [] →
      (roots.foldl (fun s v => d.visit depth v s) s).log = log := by
    induction roots with
    | nil => exact fun s hLog _ => hLog
    | cons v roots ih =>
      intro s hLog hNone
      have hVisit := visit_of_acyclic h depth v s fun u hu => by
        rw [hNone] at hu
        cases hu
      exact ih _ (hVisit.1.trans hLog) (hVisit.2.trans hNone)
  exact hRoots _ rfl rfl

section Depth

end Depth

end DepthFirst
end Library
