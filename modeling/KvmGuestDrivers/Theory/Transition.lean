/-
# Theory.Transition -- runs of a machine that may fault

A machine is a step function `σ → Op → Except ε (σ × Out)`: an operation moves the
state and answers, or stops the machine with a fault.  Two kinds of argument about
whole runs are packaged here.

* *Invariants.*  `Reachable init step` closes the initial states under a step
  relation; `Reachable.invariant` is the induction.  `Next step allowed` is the
  relation of a machine whose environment only issues the operations it is
  `allowed` to in the current state; `attempt` replays a concrete run under it.
* *Simulation.*  `run_simulates`: if every step of a machine is matched by a step
  of a total specification with the same answer, then no run of the machine faults
  and every run gives the answers of the specification.
-/

namespace KvmGuestDrivers.Theory

set_option autoImplicit false

universe u v w x y

section Invariants

variable {σ : Type u} {Op : Type v} {Out : Type w} {ε : Type x} {init P : σ → Prop} {s : σ}
  {step : σ → Op → Except ε (σ × Out)} {allowed : σ → Op → Prop}

/-- The states reached from `init` along `step`. -/
inductive Reachable (init : σ → Prop) (step : σ → σ → Prop) : σ → Prop where
  | start {s : σ} : init s → Reachable init step s
  | next {s t} : Reachable init step s → step s t → Reachable init step t

/-- What holds initially and is kept by every step holds in every reachable state. -/
theorem Reachable.invariant {step : σ → σ → Prop} (base : ∀ s, init s → P s)
    (keep : ∀ s t, P s → step s t → P t) (reach : Reachable init step s) : P s := by
  induction reach with
  | start h => exact base _ h
  | next _ h ih => exact keep _ _ ih h

/-- One step of a machine under an environment that issues only allowed operations. -/
def Next (step : σ → Op → Except ε (σ × Out)) (allowed : σ → Op → Prop) (s t : σ) : Prop :=
  ∃ op out, allowed s op ∧ step s op = .ok (t, out)

/-- The invariant rule for machines: an allowed operation answers and keeps `P`. -/
theorem Reachable.machine_invariant (base : ∀ s, init s → P s)
    (keep : ∀ s op, P s → allowed s op → ∃ t out, step s op = .ok (t, out) ∧ P t)
    (reach : Reachable init (Next step allowed) s) : P s := by
  refine reach.invariant base ?_
  rintro s t holds ⟨op, _, may, stepped⟩
  obtain ⟨t', _, same, holds'⟩ := keep s op holds may
  rw [stepped] at same
  cases same
  exact holds'

/-- The rule for runs from one state. -/
theorem Reachable.machine_run {start : σ} (reach : Reachable (· = start) (Next step allowed) s)
    (base : P start)
    (keep : ∀ s op, P s → allowed s op → ∃ t out, step s op = .ok (t, out) ∧ P t) : P s :=
  reach.machine_invariant (fun s (first : s = start) => first ▸ base) keep

/-- Replay a list of operations; `none` when one is not allowed or faults. -/
def attempt (step : σ → Op → Except ε (σ × Out)) (allowed : σ → Op → Prop)
    [∀ s op, Decidable (allowed s op)] : σ → List Op → Option σ
  | s, [] => some s
  | s, op :: ops =>
    if allowed s op then
      match step s op with
      | .error _ => none
      | .ok (t, _) => attempt step allowed t ops
    else none

/-- A replay that goes through ends in a reachable state. -/
theorem reachable_of_attempt [∀ s op, Decidable (allowed s op)] {t : σ} (ops : List Op)
    (reach : Reachable init (Next step allowed) s) (done : attempt step allowed s ops = some t) :
    Reachable init (Next step allowed) t := by
  induction ops generalizing s with
  | nil =>
    cases done
    exact reach
  | cons op _ ih =>
    unfold attempt at done
    split at done
    · rename_i may
      cases stepped : step s op with
      | error => rw [stepped] at done; cases done
      | ok r =>
        rw [stepped] at done
        exact ih (.next reach ⟨op, r.2, may, stepped⟩) done
    · cases done

/-- A replay from the only initial state that ends in a state with the property `P`. -/
theorem reachable_of_replay [∀ s op, Decidable (allowed s op)] (ops : List Op)
    (replay : ∃ t ∈ attempt step allowed s ops, P t) :
    ∃ t, Reachable (· = s) (Next step allowed) t ∧ P t := by
  obtain ⟨t, ran, holds⟩ := replay
  exact ⟨t, reachable_of_attempt ops (.start rfl) ran, holds⟩

end Invariants

section Simulation

variable {σ : Type u} {τ : Type v} {Op : Type w} {Out : Type x} {ε : Type y}

/-- Run a list of operations, collecting the answers. -/
def run (step : σ → Op → Except ε (σ × Out)) : σ → List Op → Except ε (σ × List Out)
  | s, [] => .ok (s, [])
  | s, op :: ops =>
    match step s op with
    | .error e => .error e
    | .ok (t, out) =>
      match run step t ops with
      | .error e => .error e
      | .ok (last, outs) => .ok (last, out :: outs)

/-- Run a total specification, collecting the answers. -/
def runSpec (spec : τ → Op → τ × Out) : τ → List Op → τ × List Out
  | t, [] => (t, [])
  | t, op :: ops =>
    let (mid, out) := spec t op
    let (last, outs) := runSpec spec mid ops
    (last, out :: outs)

/-- A step-by-step simulation carries over to runs of any length. -/
theorem run_simulates {step : σ → Op → Except ε (σ × Out)} {spec : τ → Op → τ × Out}
    (R : σ → τ → Prop) {V : Op → Prop}
    (sim : ∀ s t op, V op → R s t → ∃ s', step s op = .ok (s', (spec t op).2) ∧ R s' (spec t op).1)
    (ops : List Op) (valid : ∀ op ∈ ops, V op) {s : σ} {t : τ} (rel : R s t) :
    ∃ s', run step s ops = .ok (s', (runSpec spec t ops).2) ∧ R s' (runSpec spec t ops).1 := by
  induction ops generalizing s t with
  | nil => exact ⟨s, rfl, rel⟩
  | cons op _ ih =>
    obtain ⟨_, stepped, relMid⟩ := sim s t op (valid op (by simp)) rel
    obtain ⟨last, ran, relLast⟩ := ih (fun o ho => valid o (by simp [ho])) relMid
    exact ⟨last, by simp only [run, stepped, ran]; rfl, relLast⟩

end Simulation

end KvmGuestDrivers.Theory
