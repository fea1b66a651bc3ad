import Mathlib.Logic.Function.Iterate

/-!
# Runs of a step system

A system answers each input with a reply and moves to its next state. A run feeds it a list of
inputs. Invariants and simulations are stated for one step and carried to whole runs here, once.

## Main definitions

* `run step s is`: the final state and the replies of the inputs `is` from `s`
* `Along step P s is`: `P` holds of each state of the run and the input it meets there
* `both step step'`: two systems fed the same inputs

## Main results

* `run_invariant`: what every step preserves, every run preserves
* `run_simulates`: a step-wise simulation gives equal replies along whole runs
* `run_along`, `run_not_along`: what every step meeting a condition preserves, and what a step
  breaking it leads to
* `along_mono`, `along_congr`: predicates compared wherever the invariant holds
* `exists_first_break`: a run that breaks a condition breaks it somewhere for the first time
* `run_both_along`: two systems that answer alike under a condition on both
-/

namespace StepSystem

variable {σ τ ι κ ω : Type}

/-- The final state of a run and its replies, in order. -/
def run (step : σ → ι → σ × ω) : σ → List ι → σ × List ω
  | s, [] => (s, [])
  | s, i :: is => ((run step (step s i).1 is).1, (step s i).2 :: (run step (step s i).1 is).2)

@[simp] theorem run_nil (step : σ → ι → σ × ω) (s : σ) : run step s [] = (s, []) := rfl

@[simp] theorem run_cons (step : σ → ι → σ × ω) (s : σ) (i : ι) (is : List ι) :
    run step s (i :: is) =
      ((run step (step s i).1 is).1, (step s i).2 :: (run step (step s i).1 is).2) := rfl

/-- A run continues from where an earlier one ended. -/
theorem run_append (step : σ → ι → σ × ω) (s : σ) (is js : List ι) :
    (run step s (is ++ js)).1 = (run step (run step s is).1 js).1 := by
  induction is generalizing s with
  | nil => rfl
  | cons i is ih => exact ih _

/-- The replies of a run continue those of an earlier one. -/
theorem run_replies_append (step : σ → ι → σ × ω) (s : σ) (is js : List ι) :
    (run step s (is ++ js)).2 = (run step s is).2 ++ (run step (run step s is).1 js).2 := by
  induction is generalizing s with
  | nil => rfl
  | cons i is ih => rw [List.cons_append, run_cons, ih, run_cons, List.cons_append]

theorem length_replies (step : σ → ι → σ × ω) (s : σ) (is : List ι) :
    (run step s is).2.length = is.length := by
  induction is generalizing s with
  | nil => rfl
  | cons i is ih => rw [run_cons, List.length_cons, List.length_cons, ih]

/-- `P` holds of each state of the run together with the input it meets there. -/
def Along (step : σ → ι → σ × ω) (P : σ → ι → Prop) : σ → List ι → Prop
  | _, [] => True
  | s, i :: is => P s i ∧ Along step P (step s i).1 is

/-- **The invariant rule.** -/
theorem run_invariant {step : σ → ι → σ × ω} {Inv : σ → Prop}
    (hstep : ∀ s i, Inv s → Inv (step s i).1) (is : List ι) :
    ∀ s, Inv s → Inv (run step s is).1 := by
  induction is with
  | nil => exact fun s hs => hs
  | cons i is ih => exact fun s hs => ih _ (hstep s i hs)

/-- The invariant rule for runs whose inputs all meet a condition. -/
theorem run_invariant_of_inputs {step : σ → ι → σ × ω} {I : σ → Prop} {P : ι → Prop}
    (hstep : ∀ s i, P i → I s → I (step s i).1) (is : List ι) (h : ∀ i ∈ is, P i) :
    ∀ s, I s → I (run step s is).1 := by
  induction is with
  | nil => exact fun s hs => hs
  | cons i is ih =>
    obtain ⟨hi, his⟩ := List.forall_mem_cons.mp h
    exact fun s hs => ih his _ (hstep s i hi hs)

/-- **The simulation rule**: a relation kept by matching steps with equal replies relates whole
runs, and their replies are equal. -/
theorem run_simulates {step : σ → ι → σ × ω} {step' : τ → κ → τ × ω} {f : ι → κ}
    {R : σ → τ → Prop}
    (hstep : ∀ s t i, R s t → R (step s i).1 (step' t (f i)).1 ∧ (step s i).2 = (step' t (f i)).2)
    (is : List ι) :
    ∀ s t, R s t → R (run step s is).1 (run step' t (is.map f)).1 ∧
      (run step s is).2 = (run step' t (is.map f)).2 := by
  induction is with
  | nil => exact fun s t h => ⟨h, rfl⟩
  | cons i is ih =>
    intro s t h
    obtain ⟨hnext, hreply⟩ := hstep s t i h
    obtain ⟨hlast, hreplies⟩ := ih _ _ hnext
    exact ⟨hlast, by rw [run_cons, List.map_cons, run_cons, hreply, hreplies]⟩

/-- What the steps that meet the condition `P` preserve holds after runs that meet it. -/
theorem run_along {step : σ → ι → σ × ω} {Inv : σ → Prop} {P : σ → ι → Prop}
    (hstep : ∀ s i, Inv s → P s i → Inv (step s i).1) (is : List ι) :
    ∀ s, Inv s → Along step P s is → Inv (run step s is).1 := by
  induction is with
  | nil => exact fun s hs _ => hs
  | cons i is ih => exact fun s hs h => ih _ (hstep s i hs h.1) h.2

/-- Where a step that breaks `P` reaches `Lost`, which every step keeps, every run that breaks `P`
somewhere ends there. -/
theorem run_not_along {step : σ → ι → σ × ω} {Inv Lost : σ → Prop} {P : σ → ι → Prop}
    (hstep : ∀ s i, Inv s → P s i → Inv (step s i).1)
    (hbreak : ∀ s i, Inv s → ¬ P s i → Lost (step s i).1)
    (hlost : ∀ s i, Lost s → Lost (step s i).1) (is : List ι) :
    ∀ s, Inv s → ¬ Along step P s is → Lost (run step s is).1 := by
  induction is with
  | nil => exact fun s _ h => absurd trivial h
  | cons i is ih =>
    intro s hs h
    by_cases hp : P s i
    · exact ih _ (hstep s i hs hp) fun hrest => h ⟨hp, hrest⟩
    · exact run_invariant hlost is _ (hbreak s i hs hp)

/-- A condition that the invariant turns into another one does so along every run. -/
theorem along_mono {step : σ → ι → σ × ω} {Inv : σ → Prop} {P Q : σ → ι → Prop}
    (hstep : ∀ s i, Inv s → P s i → Inv (step s i).1) (hpq : ∀ s i, Inv s → P s i → Q s i)
    (is : List ι) : ∀ s, Inv s → Along step P s is → Along step Q s is := by
  induction is with
  | nil => exact fun s _ _ => trivial
  | cons i is ih => exact fun s hs h => ⟨hpq s i hs h.1, ih _ (hstep s i hs h.1) h.2⟩

/-- Two predicates that agree wherever the invariant holds agree along every run from it. -/
theorem along_congr {step : σ → ι → σ × ω} {Inv : σ → Prop} {P Q : σ → ι → Prop}
    (hstep : ∀ s i, Inv s → Inv (step s i).1) (hpq : ∀ s i, Inv s → (P s i ↔ Q s i))
    (is : List ι) : ∀ s, Inv s → (Along step P s is ↔ Along step Q s is) := by
  induction is with
  | nil => exact fun s _ => Iff.rfl
  | cons i is ih => exact fun s hs => and_congr (hpq s i hs) (ih _ (hstep s i hs))

theorem along_append {step : σ → ι → σ × ω} {P : σ → ι → Prop} (s : σ) (is js : List ι) :
    Along step P s (is ++ js) ↔ Along step P s is ∧ Along step P (run step s is).1 js := by
  induction is generalizing s with
  | nil => exact (true_and _).to_iff.symm
  | cons i is ih => exact (and_congr_right fun _ => ih _).trans and_assoc.symm

/-- A run that breaks a condition breaks it somewhere for the first time. -/
theorem exists_first_break {step : σ → ι → σ × ω} {P : σ → ι → Prop} (is : List ι) :
    ∀ s, ¬ Along step P s is → ∃ js i ks, is = js ++ i :: ks ∧ Along step P s js ∧
      ¬ P (run step s js).1 i := by
  induction is with
  | nil => exact fun s h => absurd trivial h
  | cons i is ih =>
    intro s h
    by_cases hp : P s i
    · obtain ⟨js, j, ks, rfl, hjs, hj⟩ := ih _ fun hrest => h ⟨hp, hrest⟩
      exact ⟨i :: js, j, ks, rfl, ⟨hp, hjs⟩, hj⟩
    · exact ⟨[], i, is, rfl, trivial, hp⟩

/-! ## Two systems side by side -/

/-- Two systems fed the same inputs. -/
def both (step : σ → ι → σ × ω) (step' : τ → ι → τ × ω) (p : σ × τ) (i : ι) :
    (σ × τ) × (ω × ω) :=
  (((step p.1 i).1, (step' p.2 i).1), ((step p.1 i).2, (step' p.2 i).2))

theorem run_both (step : σ → ι → σ × ω) (step' : τ → ι → τ × ω) (is : List ι) :
    ∀ p, (run (both step step') p is).1 = ((run step p.1 is).1, (run step' p.2 is).1) := by
  induction is with
  | nil => exact fun p => rfl
  | cons i is ih => exact fun p => ih _

/-- Two systems that answer alike where a relation and a condition hold, and keep the relation
there, answer alike along runs that meet the condition. -/
theorem run_both_along {step : σ → ι → σ × ω} {step' : τ → ι → τ × ω} {R : σ × τ → Prop}
    {P : σ × τ → ι → Prop}
    (hstep : ∀ p i, R p → P p i →
      R (both step step' p i).1 ∧ (step p.1 i).2 = (step' p.2 i).2) (is : List ι) :
    ∀ p, R p → Along (both step step') P p is → (run step p.1 is).2 = (run step' p.2 is).2 := by
  induction is with
  | nil => exact fun p _ _ => rfl
  | cons i is ih =>
    intro p hp h
    obtain ⟨hnext, hreply⟩ := hstep p i hp h.1
    have hrest := ih _ hnext h.2
    exact List.cons_eq_cons.mpr ⟨hreply, hrest⟩

end StepSystem
