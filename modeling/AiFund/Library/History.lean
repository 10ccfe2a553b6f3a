import Mathlib.Data.List.Chain

/-!
# Histories

A system takes the operations of a list one after another. `EachStep` states a property of every
step of the history, given the state the step starts in.
-/

namespace History

variable {σ τ ι : Type} {step : σ → ι → σ} {ok P : σ → ι → Prop} {I : σ → Prop}
  {start : σ} {ops : List ι}

def run (step : σ → ι → σ) (start : σ) (ops : List ι) : σ := ops.foldl step start

def EachStep (step : σ → ι → σ) (ok : σ → ι → Prop) : σ → List ι → Prop
  | _, [] => True
  | s, op :: ops => ok s op ∧ EachStep step ok (step s op) ops

@[simp] theorem run_nil : run step start [] = start := rfl

@[simp] theorem run_cons (op : ι) : run step start (op :: ops) = run step (step start op) ops := rfl

theorem run_append (rest : List ι) :
    run step start (ops ++ rest) = run step (run step start ops) rest :=
  List.foldl_append

@[simp] theorem eachStep_nil : EachStep step ok start [] := trivial

@[simp] theorem eachStep_cons (op : ι) :
    EachStep step ok start (op :: ops) ↔ ok start op ∧ EachStep step ok (step start op) ops :=
  Iff.rfl

instance decidableEachStep [∀ s op, Decidable (ok s op)] :
    (start : σ) → (ops : List ι) → Decidable (EachStep step ok start ops)
  | _, [] => .isTrue trivial
  | s, op :: ops =>
      have := decidableEachStep (step s op) ops
      inferInstanceAs (Decidable (ok s op ∧ EachStep step ok (step s op) ops))

theorem eachStep_append {rest : List ι} :
    EachStep step ok start (ops ++ rest) ↔
      EachStep step ok start ops ∧ EachStep step ok (run step start ops) rest := by
  induction ops generalizing start with
  | nil => simp
  | cons op ops ih =>
      rw [List.cons_append, eachStep_cons, ih, eachStep_cons, and_assoc]
      rfl

/-- An invariant of the admissible steps holds after every history made of them. -/
theorem invariant (hstep : ∀ s op, I s → ok s op → I (step s op)) (hstart : I start)
    (hops : EachStep step ok start ops) : I (run step start ops) := by
  induction ops generalizing start with
  | nil => exact hstart
  | cons op ops ih => exact ih (hstep start op hstart hops.1) hops.2

/-- A property that every admissible step has in a state of the invariant holds all along. -/
theorem eachStep_of_invariant (hstep : ∀ s op, I s → ok s op → I (step s op))
    (hP : ∀ s op, I s → ok s op → P s op) (hstart : I start)
    (hops : EachStep step ok start ops) : EachStep step P start ops := by
  induction ops generalizing start with
  | nil => trivial
  | cons op ops ih =>
      exact ⟨hP start op hstart hops.1, ih (hstep start op hstart hops.1) hops.2⟩

theorem EachStep.mono (h : ∀ s op, ok s op → P s op) (hops : EachStep step ok start ops) :
    EachStep step P start ops := by
  induction ops generalizing start with
  | nil => trivial
  | cons op ops ih => exact ⟨h start op hops.1, ih hops.2⟩

theorem eachStep_of_forall (h : ∀ s op, P s op) : EachStep step P start ops := by
  induction ops generalizing start with
  | nil => trivial
  | cons op ops ih => exact ⟨h start op, ih⟩

theorem eachStep_replicate {n : ℕ} {op : ι} :
    EachStep step (fun _ op' => op' = op) start (List.replicate n op) := by
  induction n generalizing start with
  | zero => trivial
  | succ n ih => exact ⟨rfl, ih⟩

/-- An invariant of all steps holds after every history. -/
theorem invariant_of_forall (hstep : ∀ s op, I s → I (step s op)) (hstart : I start) :
    I (run step start ops) := by
  have hops : EachStep step (fun _ _ => True) start ops := eachStep_of_forall fun _ _ => trivial
  exact invariant (fun s op hs _ => hstep s op hs) hstart hops

/-- All that a history goes through, where one step goes through `states s op`. -/
def trace (step : σ → ι → σ) (states : σ → ι → List τ) : σ → List ι → List τ
  | _, [] => []
  | s, op :: ops => states s op ++ trace step states (step s op) ops

theorem trace_append {states : σ → ι → List τ} (rest : List ι) :
    trace step states start (ops ++ rest) =
      trace step states start ops ++ trace step states (run step start ops) rest := by
  induction ops generalizing start with
  | nil => rfl
  | cons op ops ih =>
      calc
        trace step states start (op :: ops ++ rest) =
            states start op ++ trace step states (step start op) (ops ++ rest) := rfl
        _ = states start op ++ trace step states (step start op) ops ++
            trace step states (run step start (op :: ops)) rest := by
          rw [ih, List.append_assoc]
          rfl

end History
