import CommandConsole.Library.Run

/-! # Calls as scripts

A script is what an asynchronous call still has to do: it returns, throws, or awaits
the answer to a command and goes on with it. The scripts of several calls take turns
on one store, or one call plays alone.
-/
namespace Library
set_option autoImplicit false

/-- A command is answered with none when its promise is rejected. -/
inductive Script (C : Type) (R : C → Type) (α : Type) where
  | done (a : α)
  | fail
  | await (command : C) (next : Option (R command) → Script C R α)

namespace Script

variable {C : Type} {R : C → Type} {α β : Type}

def bind : Script C R α → (α → Script C R β) → Script C R β
  | done a, f => f a
  | fail, _ => fail
  | await command next, f => await command fun answer => (next answer).bind f

instance : Monad (Script C R) where
  pure := done
  bind := bind

def ofOption : Option α → Script C R α
  | some a => done a
  | none => fail

/-- `await command`. -/
def ask (command : C) : Script C R (R command) := await command ofOption

/-- The outcome of a call, none when it throws. -/
def attempt : Script C R α → Script C R (Option α)
  | done a => done (some a)
  | fail => done none
  | await command next => await command fun answer => (next answer).attempt

end Script

/-- How the store answers the commands of a call: nothing yet, or an answer and the store after it.
A call relies on what the others leave to it. -/
structure Protocol (C : Type) (R : C → Type) (ι σ : Type) where
  perform : Nat → ι → (command : C) → σ → Option (Option (R command) × σ)
  MayWait : C → σ → Prop
  Allowed : Nat → ι → C → σ → Prop
  Inv : σ → Prop
  Rely : Nat → σ → σ → Prop
  rely_refl : ∀ i s, Rely i s s
  rely_trans : ∀ i s t u, Rely i s t → Rely i t u → Rely i s u

/-- The protocol, where something else is allowed to a call. -/
def Protocol.under {C : Type} {R : C → Type} {ι σ : Type} (protocol : Protocol C R ι σ)
    (allowed : Nat → ι → C → σ → Prop) : Protocol C R ι σ := { protocol with Allowed := allowed }

/-- The protocol with more that holds of the store at all times. -/
def Protocol.keeping {C : Type} {R : C → Type} {ι σ : Type} (protocol : Protocol C R ι σ) (J : σ → Prop) :
    Protocol C R ι σ := { protocol with Inv := fun s => protocol.Inv s ∧ J s }

namespace Script

variable {C : Type} {R : C → Type} {ι σ α β : Type}

/-- Whatever the others do between its commands, the call keeps the invariant, leaves to the others
what they rely on, and ends in the way that the postcondition says. -/
def Safe (protocol : Protocol C R ι σ) (i : Nat) (post : Option α → σ → Prop) : Script C R α → σ → Prop
  | done a, s => ∀ t, protocol.Rely i s t → protocol.Inv t → post (some a) t
  | fail, s => ∀ t, protocol.Rely i s t → protocol.Inv t → post none t
  | await command next, s => ∀ t, protocol.Rely i s t → protocol.Inv t →
      ∀ input, protocol.Allowed i input command t →
        match protocol.perform i input command t with
        | none => protocol.MayWait command t
        | some (answer, u) =>
          protocol.Inv u ∧ (∀ j, j ≠ i → protocol.Rely j t u) ∧ Safe protocol i post (next answer) u

variable {protocol : Protocol C R ι σ} {i : Nat} {post M : Option α → σ → Prop} {s t : σ}

theorem Safe.later {x : Script C R α} (h : Safe protocol i post x s) (hRely : protocol.Rely i s t) :
    Safe protocol i post x t := by
  cases x with
  | done a => exact fun u hLater hInv => h u (protocol.rely_trans _ _ _ _ hRely hLater) hInv
  | fail => exact fun u hLater hInv => h u (protocol.rely_trans _ _ _ _ hRely hLater) hInv
  | await command next => exact fun u hLater hInv => h u (protocol.rely_trans _ _ _ _ hRely hLater) hInv

theorem Safe.result {a : α} (h : Safe protocol i post (done a) s) (hInv : protocol.Inv s) : post (some a) s :=
  h s (protocol.rely_refl i s) hInv

theorem Safe.mono {x : Script C R α} (h : Safe protocol i M x s)
    (hPost : ∀ outcome t, protocol.Inv t → M outcome t → post outcome t) : Safe protocol i post x s := by
  induction x generalizing s with
  | done a => exact fun t hLater hInv => hPost _ t hInv (h t hLater hInv)
  | fail => exact fun t hLater hInv => hPost _ t hInv (h t hLater hInv)
  | await command next ih =>
    intro t hLater hInv input hAllowed
    have hStep := h t hLater hInv input hAllowed
    split at hStep
    · exact hStep
    · exact ⟨hStep.1, hStep.2.1, ih _ hStep.2.2⟩

theorem Safe.bind {M : Option β → σ → Prop} {x : Script C R β} {f : β → Script C R α}
    (h : Safe protocol i M x s) (hInv : protocol.Inv s)
    (hNext : ∀ b t, protocol.Inv t → (∀ u, protocol.Rely i t u → protocol.Inv u → M (some b) u) →
      Safe protocol i post (f b) t)
    (hFail : ∀ t, protocol.Inv t → M none t → post none t) : Safe protocol i post (x >>= f) s := by
  change Safe protocol i post (x.bind f) s
  induction x generalizing s with
  | done b => exact hNext b s hInv h
  | fail => exact fun t hLater hInv => hFail t hInv (h t hLater hInv)
  | await command next ih =>
    intro t hLater hInv input hAllowed
    have hStep := h t hLater hInv input hAllowed
    split at hStep
    · exact hStep
    · exact ⟨hStep.1, hStep.2.1, ih _ hStep.2.2 hStep.1⟩

theorem Safe.map {post : Option β → σ → Prop} {f : α → β} {x : Script C R α}
    (h : Safe protocol i (fun outcome => post (outcome.map f)) x s) (hInv : protocol.Inv s) :
    Safe protocol i post (f <$> x) s :=
  Safe.bind h hInv (fun _ _ _ hMid => hMid) fun _ _ hMid => hMid

theorem Safe.ofOption {outcome : Option α} (h : ∀ t, protocol.Rely i s t → protocol.Inv t → post outcome t) :
    Safe protocol i post (Script.ofOption outcome) s := by
  cases outcome with
  | none => exact h
  | some a => exact h

theorem Safe.attempt {post : Option (Option α) → σ → Prop} {x : Script C R α}
    (h : Safe protocol i (fun outcome => post (some outcome)) x s) : Safe protocol i post x.attempt s := by
  induction x generalizing s with
  | done a => exact h
  | fail => exact h
  | await command next ih =>
    intro t hLater hInv input hAllowed
    have hStep := h t hLater hInv input hAllowed
    split at hStep
    · exact hStep
    · exact ⟨hStep.1, hStep.2.1, ih _ hStep.2.2⟩

theorem Safe.ite {c : Prop} [Decidable c] {x y : Script C R α} (hx : c → Safe protocol i post x s)
    (hy : ¬c → Safe protocol i post y s) : Safe protocol i post (if c then x else y) s := by
  split
  · rename_i h
    exact hx h
  · rename_i h
    exact hy h

/-- What the call may do to the store with one command. -/
def Fair (protocol : Protocol C R ι σ) (i : Nat) (s t : σ) : Prop :=
  protocol.Inv t ∧ ∀ j, j ≠ i → protocol.Rely j s t

theorem Safe.ask {command : C} {f : R command → Script C R α}
    (h : ∀ t, protocol.Rely i s t → protocol.Inv t → ∀ input, protocol.Allowed i input command t →
      match protocol.perform i input command t with
      | none => protocol.MayWait command t
      | some (none, u) => Fair protocol i t u ∧ ∀ v, protocol.Rely i u v → protocol.Inv v → post none v
      | some (some a, u) => Fair protocol i t u ∧ Safe protocol i post (f a) u) :
    Safe protocol i post (ask command >>= f) s := by
  intro t hLater hInv input hAllowed
  have hStep := h t hLater hInv input hAllowed
  split at hStep
  · rename_i hPerform
    rw [hPerform]
    exact hStep
  · rename_i hPerform
    rw [hPerform]
    exact ⟨hStep.1.1, hStep.1.2, hStep.2⟩
  · rename_i hPerform
    rw [hPerform]
    exact ⟨hStep.1.1, hStep.1.2, hStep.2⟩

/-- What every fair step keeps may be added to the invariant. -/
theorem Safe.keeping {J : σ → Prop} (hKeep : ∀ s t, Fair protocol i s t → J s → J t) {x : Script C R α}
    (h : Safe protocol i post x s) : Safe (protocol.keeping J) i post x s := by
  induction x generalizing s with
  | done a => exact fun t hLater hInv => h t hLater hInv.1
  | fail => exact fun t hLater hInv => h t hLater hInv.1
  | await command next ih =>
    intro t hLater hInv input hAllowed
    have hStep := h t hLater hInv.1 input hAllowed
    dsimp only [Protocol.keeping]
    split at hStep
    · exact hStep
    · exact ⟨⟨hStep.1, hKeep _ _ ⟨hStep.1, hStep.2.1⟩ hInv.2⟩, hStep.2.1, ih _ hStep.2.2⟩

/-- A command that is answered from outside the store. -/
theorem Safe.given {command : C} {f : R command → Script C R α}
    (hGiven : ∀ input t, ∃ a, protocol.perform i input command t = some (some a, t))
    (hNext : ∀ a t, protocol.Rely i s t → protocol.Inv t → Safe protocol i post (f a) t) :
    Safe protocol i post (Script.ask command >>= f) s := by
  refine Safe.ask fun t hLater hInv input _ => ?_
  obtain ⟨a, hPerform⟩ := hGiven input t
  rw [hPerform]
  exact ⟨⟨hInv, fun j _ => protocol.rely_refl j t⟩, hNext a t hLater hInv⟩

section Alone

variable (perform : Nat → ι → (command : C) → σ → Option (Option (R command) × σ)) (i : Nat)

/-- A call without others: its outcome and the store after it, or nothing if it waits for ever. -/
def play (inputs : Nat → C → ι) : Nat → Script C R α → σ → Option (Option α × σ)
  | _, done a, s => some (some a, s)
  | _, fail, s => some (none, s)
  | n, await command next, s =>
    match perform i (inputs n command) command s with
    | none => none
    | some (answer, t) => play inputs (n + 1) (next answer) t

/-- Every command of the call, played alone, is one that is allowed. -/
def Within (allowed : Nat → ι → C → σ → Prop) (inputs : Nat → C → ι) : Nat → Script C R α → σ → Prop
  | _, done _, _ => True
  | _, fail, _ => True
  | n, await command next, s =>
    allowed i (inputs n command) command s ∧
      match perform i (inputs n command) command s with
      | none => True
      | some (answer, t) => Within allowed inputs (n + 1) (next answer) t

variable {perform} {i}

theorem within_of_allowed {allowed : Nat → ι → C → σ → Prop} {inputs : Nat → C → ι}
    (h : ∀ n command s, allowed i (inputs n command) command s) (x : Script C R α) (n : Nat) (s : σ) :
    x.Within perform i allowed inputs n s := by
  induction x generalizing n s with
  | done a => trivial
  | fail => trivial
  | await command next ih =>
    rw [Within]
    refine ⟨h n command s, ?_⟩
    split
    · trivial
    · exact ih _ _ _

end Alone

theorem Safe.play {x : Script C R α} (h : Safe protocol i post x s) (hInv : protocol.Inv s)
    (hWait : ∀ command t, ¬ protocol.MayWait command t) {inputs : Nat → C → ι} {n : Nat}
    (hWithin : x.Within protocol.perform i protocol.Allowed inputs n s) :
    ∃ outcome t, x.play protocol.perform i inputs n s = some (outcome, t) ∧ protocol.Inv t ∧ post outcome t := by
  induction x generalizing s n with
  | done a => exact ⟨_, s, rfl, hInv, h.result hInv⟩
  | fail => exact ⟨_, s, rfl, hInv, h s (protocol.rely_refl i s) hInv⟩
  | await command next ih =>
    rw [Within] at hWithin
    obtain ⟨hAllowed, hRest⟩ := hWithin
    have hStep := h s (protocol.rely_refl i s) hInv _ hAllowed
    rw [Script.play]
    split at hStep
    · exact absurd hStep (hWait command s)
    · rename_i hPerform
      rw [hPerform] at hRest
      exact ih _ hStep.2.2 hStep.1 hRest

end Script

/-- A call with what it still has to do. -/
structure Call (κ C : Type) (R : C → Type) (α : Type) where
  request : κ
  rest : Script C R α

def Call.outcome? {κ C : Type} {R : C → Type} {α : Type} (call : Call κ C R α) : Option (Option α) :=
  match call.rest with
  | .done a => some (some a)
  | .fail => some none
  | .await _ _ => none

structure Scene (κ C : Type) (R : C → Type) (α σ : Type) where
  store : σ
  calls : List (Call κ C R α)

inductive SceneTurn (κ ι : Type) where
  | enter (request : κ)
  | advance (index : Nat) (input : ι)
  deriving DecidableEq

namespace Scene

variable {κ C : Type} {R : C → Type} {ι σ α : Type}

def init (store : σ) : Scene κ C R α σ := ⟨store, []⟩

def step (perform : Nat → ι → (command : C) → σ → Option (Option (R command) × σ))
    (script : κ → Script C R α) (turn : SceneTurn κ ι) (scene : Scene κ C R α σ) : Scene κ C R α σ :=
  match turn with
  | .enter request => { scene with calls := scene.calls ++ [⟨request, script request⟩] }
  | .advance index input =>
    match scene.calls[index]? with
    | some ⟨request, .await command next⟩ =>
      match perform index input command scene.store with
      | none => scene
      | some (answer, store) => ⟨store, scene.calls.set index ⟨request, next answer⟩⟩
    | _ => scene

/-- The turn gives its call an input that the protocol allows. -/
def Allows (allowed : Nat → ι → C → σ → Prop) (turn : SceneTurn κ ι) (scene : Scene κ C R α σ) : Prop :=
  match turn with
  | .enter _ => True
  | .advance index input =>
    match scene.calls[index]? with
    | some ⟨_, .await command _⟩ => allowed index input command scene.store
    | _ => True

instance (allowed : Nat → ι → C → σ → Prop) [∀ i input command s, Decidable (allowed i input command s)]
    (turn : SceneTurn κ ι) (scene : Scene κ C R α σ) : Decidable (Allows allowed turn scene) :=
  match turn with
  | .enter _ => inferInstanceAs (Decidable True)
  | .advance index input => by
    unfold Allows
    dsimp only
    split <;> infer_instance

/-- The turn gives its call an input that is allowed to calls with its request. -/
def AllowsFor (allowed : κ → Nat → ι → C → σ → Prop) (turn : SceneTurn κ ι) (scene : Scene κ C R α σ) : Prop :=
  match turn with
  | .enter _ => True
  | .advance index input =>
    match scene.calls[index]? with
    | some ⟨request, .await command _⟩ => allowed request index input command scene.store
    | _ => True

instance (allowed : κ → Nat → ι → C → σ → Prop) [∀ request i input command s, Decidable (allowed request i input command s)]
    (turn : SceneTurn κ ι) (scene : Scene κ C R α σ) : Decidable (AllowsFor allowed turn scene) :=
  match turn with
  | .enter _ => inferInstanceAs (Decidable True)
  | .advance index input => by
    unfold AllowsFor
    dsimp only
    split <;> infer_instance

/-- Every call keeps the invariant and what it leaves to the others, under what is allowed to its request.
A call that has not begun is fresh. -/
theorem invariant_from (protocol : Protocol C R ι σ) {allowed : κ → Nat → ι → C → σ → Prop}
    {script : κ → Script C R α} {post : Nat → κ → Option α → σ → Prop} (fresh : Nat → σ → Prop)
    {start scene : Scene κ C R α σ} (h : Reaches (step protocol.perform script) (AllowsFor allowed) start scene)
    (hStart : protocol.Inv start.store)
    (hCalls : ∀ (i : Nat) (call : Call κ C R α), start.calls[i]? = some call →
      call.rest.Safe (protocol.under (allowed call.request)) i (post i call.request) start.store)
    (hFresh : ∀ i, start.calls.length ≤ i → fresh i start.store)
    (hStable : ∀ i s t, protocol.Rely i s t → fresh i s → fresh i t)
    (hEnter : ∀ i request s, start.calls.length ≤ i → protocol.Inv s → fresh i s →
      (script request).Safe (protocol.under (allowed request)) i (post i request) s) :
    (protocol.Inv scene.store ∧ ∀ (i : Nat) (call : Call κ C R α), scene.calls[i]? = some call →
      call.rest.Safe (protocol.under (allowed call.request)) i (post i call.request) scene.store) ∧
        start.calls.length ≤ scene.calls.length ∧ ∀ i, scene.calls.length ≤ i → fresh i scene.store := by
  refine h.invariant (P := fun (scene : Scene κ C R α σ) => (protocol.Inv scene.store ∧
    ∀ (i : Nat) (call : Call κ C R α), scene.calls[i]? = some call →
      call.rest.Safe (protocol.under (allowed call.request)) i (post i call.request) scene.store) ∧
        start.calls.length ≤ scene.calls.length ∧ ∀ i, scene.calls.length ≤ i → fresh i scene.store)
    ⟨⟨hStart, hCalls⟩, Nat.le_refl _, hFresh⟩ ?_
  rintro turn scene ⟨⟨hInv, hSafe⟩, hLength, hLater⟩ hAllows
  cases turn with
  | enter request =>
    refine ⟨⟨hInv, fun i call hCall => ?_⟩, ?_, fun i hi => ?_⟩
    · change (scene.calls ++ [_])[i]? = some call at hCall
      rw [List.getElem?_append] at hCall
      split at hCall
      · exact hSafe i call hCall
      · rename_i hNew
        obtain rfl := List.mem_singleton.mp (List.mem_of_getElem? hCall)
        have hi := Nat.le_of_not_lt hNew
        exact hEnter i request _ (Nat.le_trans hLength hi) hInv (hLater i hi)
    · change _ ≤ (scene.calls ++ [_]).length
      rw [List.length_append]
      exact Nat.le_add_right_of_le hLength
    · change (scene.calls ++ [_]).length ≤ i at hi
      rw [List.length_append] at hi
      exact hLater i (Nat.le_of_add_right_le hi)
  | advance index input =>
    rw [AllowsFor] at hAllows
    simp only [step]
    split
    · rename_i request command next hCall
      rw [hCall] at hAllows
      have hStep := hSafe index _ hCall _ (protocol.rely_refl index _) hInv input hAllows
      dsimp only [Protocol.under] at hStep
      split
      · exact ⟨⟨hInv, hSafe⟩, hLength, hLater⟩
      · rename_i answer store' hPerform
        rw [hPerform] at hStep
        refine ⟨⟨hStep.1, fun i call hCall' => ?_⟩, ?_, fun i hi => ?_⟩
        · rw [List.getElem?_set] at hCall'
          split at hCall'
          · rename_i hEq
            split at hCall'
            · obtain rfl := Option.some.inj hCall'
              exact hEq ▸ hStep.2.2
            · cases hCall'
          · rename_i hNe
            exact (hSafe i call hCall').later (hStep.2.1 i (Ne.symm hNe))
        · rw [List.length_set]
          exact hLength
        · rw [List.length_set] at hi
          have hIndex := (List.getElem?_eq_some_iff.mp hCall).1
          exact hStable i _ _ (hStep.2.1 i (by omega)) (hLater i hi)
    · exact ⟨⟨hInv, hSafe⟩, hLength, hLater⟩

theorem invariant_for (protocol : Protocol C R ι σ) {allowed : κ → Nat → ι → C → σ → Prop}
    {script : κ → Script C R α} {post : Nat → κ → Option α → σ → Prop} (fresh : Nat → σ → Prop) {store : σ}
    {scene : Scene κ C R α σ} (h : Reaches (step protocol.perform script) (AllowsFor allowed) (init store) scene)
    (hStart : protocol.Inv store) (hFresh : ∀ i, fresh i store)
    (hStable : ∀ i s t, protocol.Rely i s t → fresh i s → fresh i t)
    (hEnter : ∀ i request s, protocol.Inv s → fresh i s →
      (script request).Safe (protocol.under (allowed request)) i (post i request) s) :
    protocol.Inv scene.store ∧ ∀ (i : Nat) (call : Call κ C R α), scene.calls[i]? = some call →
      call.rest.Safe (protocol.under (allowed call.request)) i (post i call.request) scene.store :=
  (invariant_from protocol fresh h hStart (fun _ _ hCall => nomatch hCall) (fun i _ => hFresh i) hStable
    fun i request s _ => hEnter i request s).1

/-- What holds from a point of a run on may be relied on by the calls that begin later. -/
theorem late_calls (protocol : Protocol C R ι σ) {allowed : κ → Nat → ι → C → σ → Prop} {script : κ → Script C R α}
    {post : Nat → κ → Option α → σ → Prop} (fresh : Nat → σ → Prop) {store : σ} {scene later : Scene κ C R α σ}
    (h : Reaches (step protocol.perform script) (AllowsFor allowed) (init store) scene)
    (hLater : Reaches (step protocol.perform script) (AllowsFor allowed) scene later)
    (hStart : protocol.Inv store) (hFresh : ∀ i, fresh i store)
    (hStable : ∀ i s t, protocol.Rely i s t → fresh i s → fresh i t)
    (hEnter : ∀ i request s, protocol.Inv s → fresh i s →
      (script request).Safe (protocol.under (allowed request)) i (post i request) s)
    {J : σ → Prop} (hKeep : ∀ i s t, Script.Fair protocol i s t → J s → J t) (hJ : J scene.store)
    {late : Nat → κ → Option α → σ → Prop}
    (hLate : ∀ i request s, protocol.Inv s → J s → fresh i s →
      (script request).Safe ((protocol.keeping J).under (allowed request)) i (late i request) s) :
    (protocol.Inv later.store ∧ J later.store) ∧
      ∀ (i : Nat) (call : Call κ C R α), scene.calls.length ≤ i → later.calls[i]? = some call →
        call.rest.Safe ((protocol.keeping J).under (allowed call.request)) i (late i call.request) later.store := by
  obtain ⟨⟨hInv, hSafe⟩, -, hFreshNow⟩ := invariant_from protocol fresh h hStart (fun _ _ hCall => nomatch hCall)
    (fun i _ => hFresh i) hStable fun i request s _ => hEnter i request s
  have hAll := @invariant_from κ C R ι σ α (protocol.keeping J) allowed script
    (fun i request => if i < scene.calls.length then post i request else late i request) fresh scene later hLater
    ⟨hInv, hJ⟩ (fun i call hCall => ?_) hFreshNow hStable fun i request s hi hBoth hFreshThen => ?_
  · refine ⟨hAll.1.1, fun i call hi hCall => ?_⟩
    have hOne := hAll.1.2 i call hCall
    rw [if_neg (Nat.not_lt_of_le hi)] at hOne
    exact hOne
  · rw [if_pos (List.getElem?_eq_some_iff.mp hCall).1]
    exact @Script.Safe.keeping C R ι σ α (protocol.under (allowed call.request)) i (post i call.request) scene.store J
      (hKeep i) call.rest (hSafe i call hCall)
  · rw [if_neg (Nat.not_lt_of_le hi)]
    exact hLate i request s hBoth.1 hBoth.2 hFreshThen

theorem step_relates_for {protocol : Protocol C R ι σ} {allowed : κ → Nat → ι → C → σ → Prop}
    {script : κ → Script C R α} {post : Nat → κ → Option α → σ → Prop} {G : σ → σ → Prop} [Std.Refl G]
    {turn : SceneTurn κ ι} {scene : Scene κ C R α σ} (hG : ∀ i s t, Script.Fair protocol i s t → G s t)
    (hInv : protocol.Inv scene.store)
    (hSafe : ∀ (i : Nat) (call : Call κ C R α), scene.calls[i]? = some call →
      call.rest.Safe (protocol.under (allowed call.request)) i (post i call.request) scene.store)
    (hAllows : AllowsFor allowed turn scene) : G scene.store (step protocol.perform script turn scene).store := by
  cases turn with
  | enter request => exact Std.Refl.refl _
  | advance index input =>
    rw [AllowsFor] at hAllows
    simp only [step]
    split
    · rename_i request command next hCall
      rw [hCall] at hAllows
      have hStep := hSafe index _ hCall _ (protocol.rely_refl index _) hInv input hAllows
      dsimp only [Protocol.under] at hStep
      split
      · exact Std.Refl.refl _
      · rename_i answer store' hPerform
        rw [hPerform] at hStep
        exact hG index _ _ ⟨hStep.1, hStep.2.1⟩
    · exact Std.Refl.refl _

/-- What every step of a fair call respects relates the stores of a run. -/
theorem relates_for (protocol : Protocol C R ι σ) {allowed : κ → Nat → ι → C → σ → Prop} {script : κ → Script C R α}
    {post : Nat → κ → Option α → σ → Prop} (fresh : Nat → σ → Prop) {G : σ → σ → Prop} [Std.Refl G] [IsTrans σ G]
    {store : σ} {scene later : Scene κ C R α σ}
    (h : Reaches (step protocol.perform script) (AllowsFor allowed) (init store) scene)
    (hLater : Reaches (step protocol.perform script) (AllowsFor allowed) scene later) (hStart : protocol.Inv store)
    (hFresh : ∀ i, fresh i store) (hStable : ∀ i s t, protocol.Rely i s t → fresh i s → fresh i t)
    (hEnter : ∀ i request s, protocol.Inv s → fresh i s →
      (script request).Safe (protocol.under (allowed request)) i (post i request) s)
    (hG : ∀ i s t, Script.Fair protocol i s t → G s t) : G scene.store later.store := by
  have hRefl : Std.Refl fun (s t : Scene κ C R α σ) => G s.store t.store := ⟨fun _ => Std.Refl.refl _⟩
  have hTrans : IsTrans _ fun (s t : Scene κ C R α σ) => G s.store t.store := ⟨fun _ _ _ => trans_of G⟩
  refine h.relates_later (R := fun s t => G s.store t.store) hLater fun turn scene hRun hAllows => ?_
  obtain ⟨hInv, hSafe⟩ := invariant_for protocol fresh hRun hStart hFresh hStable hEnter
  exact step_relates_for hG hInv hSafe hAllows

theorem allowsFor_iff {allowed : Nat → ι → C → σ → Prop} {turn : SceneTurn κ ι} {scene : Scene κ C R α σ} :
    AllowsFor (fun _ => allowed) turn scene ↔ Allows allowed turn scene := by
  unfold AllowsFor Allows
  split
  · exact Iff.rfl
  · split <;> rfl

theorem reaches_for {protocol : Protocol C R ι σ} {script : κ → Script C R α} {scene later : Scene κ C R α σ}
    (h : Reaches (step protocol.perform script) (Allows protocol.Allowed) scene later) :
    Reaches (step protocol.perform script) (AllowsFor fun _ => protocol.Allowed) scene later :=
  h.mono fun _ _ hAllows => allowsFor_iff.mpr hAllows

theorem invariant (protocol : Protocol C R ι σ) {script : κ → Script C R α} {post : κ → Option α → σ → Prop}
    {store : σ} {scene : Scene κ C R α σ}
    (h : Reaches (step protocol.perform script) (Allows protocol.Allowed) (init store) scene)
    (hStart : protocol.Inv store)
    (hEnter : ∀ i request s, protocol.Inv s → (script request).Safe protocol i (post request) s) :
    protocol.Inv scene.store ∧ ∀ (i : Nat) (call : Call κ C R α), scene.calls[i]? = some call →
      call.rest.Safe protocol i (post call.request) scene.store :=
  @invariant_for κ C R ι σ α protocol (fun _ => protocol.Allowed) script (fun _ => post) (fun _ _ => True) store scene
    (reaches_for h) hStart (fun _ => trivial) (fun _ _ _ _ _ => trivial) fun i request s hInv _ => hEnter i request s hInv

/-- What every step of a fair call respects relates the stores of a run. -/
theorem relates (protocol : Protocol C R ι σ) {script : κ → Script C R α} {post : κ → Option α → σ → Prop}
    {G : σ → σ → Prop} [Std.Refl G] [IsTrans σ G] {store : σ} {scene later : Scene κ C R α σ}
    (h : Reaches (step protocol.perform script) (Allows protocol.Allowed) (init store) scene)
    (hLater : Reaches (step protocol.perform script) (Allows protocol.Allowed) scene later)
    (hStart : protocol.Inv store)
    (hEnter : ∀ i request s, protocol.Inv s → (script request).Safe protocol i (post request) s)
    (hG : ∀ i s t, Script.Fair protocol i s t → G s t) : G scene.store later.store :=
  @relates_for κ C R ι σ α protocol (fun _ => protocol.Allowed) script (fun _ => post) (fun _ _ => True) G _ _ store
    scene later (reaches_for h) (reaches_for hLater) hStart (fun _ => trivial) (fun _ _ _ _ _ => trivial)
    (fun i request s hInv _ => hEnter i request s hInv) hG

end Scene
end Library
