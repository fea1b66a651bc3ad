import DContext.Thread.Context
import DContext.System.Run
import Mathlib.Data.List.Perm.Basic

/-!
# A thread gets its own context back

An attach moves the content of the cell into its guard, and the drop of the guard moves it back
over whatever is in the cell then. Which of the contexts around is the thread's own one is kept
track of here, together with what it holds.

## Main definitions

* `Held U`, `State U`, `Op U`, `step`: one thread, its attach guards, and whose context is where
* `DropsAttached`: no guard is dropped while the thread's own context is the active one
* `DropsNewest`: guards are dropped in the opposite order of their attaches

## Main results

* `step_kept`, `step_loses`, `step_lost`: where the own context is after a step
* `own_context_restored_iff`: when a thread has its own context once all guards are dropped
* `own_context_restored_of_newest`: it has it when every dropped guard is the newest one
-/

namespace DContext

open StepSystem

variable {U : TypeUniverse}

namespace Attaching

/-- An attach guard in the hands of the program, and whether it keeps the thread's own context. -/
structure Held (U : TypeUniverse) where
  guard : AttachGuard U
  keepsOwn : Bool

/-- One thread: its cell, whether the own context is the one in it, what the own context holds, and
the attach guards not yet dropped, oldest first. -/
structure State (U : TypeUniverse) where
  cell : Cell U
  isOwn : Bool
  own : Cell U
  guards : List (Held U)

/-- What a program does on the thread. A drop names a guard by its place among those held; the
context operations all reach the store through `try_apply`. -/
inductive Op (U : TypeUniverse)
  | apply (f : ContextStore U → ContextStore U)
  | attachStore (store : ContextStore U)
  | attachSnapshot (snap : ContextSnapshot U)
  | drop (i : Nat)

/-- The cell after a context operation. -/
def applyTo (f : ContextStore U → ContextStore U) (cell : Cell U) : Cell U :=
  (tryApply cell fun store => (f store, ())).1

/-- The state after an attach that has left this cell and this guard. -/
def attached (r : Cell U × AttachGuard U) (st : State U) : State U :=
  { st with cell := r.1, isOwn := false, guards := st.guards ++ [⟨r.2, st.isOwn⟩] }

def step (g : Globals U) (st : State U) : Op U → State U × Unit
  | .apply f =>
    ({ st with
        cell := applyTo f st.cell
        own := if st.isOwn then applyTo f st.own else st.own }, ())
  | .attachStore store => (attached (Thread.attachStore store st.cell) st, ())
  | .attachSnapshot snap => (attached (Thread.attachSnapshot g snap st.cell) st, ())
  | .drop i =>
    match st.guards[i]? with
    | none => (st, ())
    | some held =>
      ({ st with
          cell := held.guard.drop
          isOwn := held.keepsOwn
          guards := st.guards.eraseIdx i }, ())

/-- A thread with the store `s₀` and no guards. -/
def start (s₀ : ContextStore U) : State U where
  cell := some s₀
  isOwn := true
  own := some s₀
  guards := []

/-- The own context is the active one, as it was left. -/
def Restored (st : State U) : Prop := st.isOwn = true ∧ st.cell = st.own

/-- No guard is dropped while the own context is active. -/
def DropsAttached (st : State U) : Op U → Prop
  | .drop i => st.guards[i]?.isSome → st.isOwn = false
  | _ => True

/-- No context operation meets the own context. -/
def SparesOwn (st : State U) : Op U → Prop
  | .apply _ => st.isOwn = false
  | _ => True

/-- Every guard is dropped before those that were there at its attach. -/
def DropsNewest (st : State U) : Op U → Prop
  | .drop i => i + 1 = st.guards.length
  | _ => True

/-! ## Where the own context is -/

/-- In how many places the own context is. -/
def places (st : State U) : Nat := st.isOwn.toNat + st.guards.countP Held.keepsOwn

/-- The own context is in one place, with what it holds. -/
structure Kept (st : State U) : Prop where
  once : places st = 1
  active : st.isOwn = true → st.cell = st.own
  guarded : ∀ held ∈ st.guards, held.keepsOwn = true → held.guard.prev = st.own

/-- The own context is nowhere. -/
def Lost (st : State U) : Prop := places st = 0

theorem start_kept (s₀ : ContextStore U) : Kept (start s₀) :=
  ⟨rfl, fun _ => rfl, fun held h => by cases h⟩

theorem Kept.restored_of_nil {st : State U} (h : Kept st) (hend : st.guards = []) :
    Restored st := by
  have honce := h.once
  have hown : st.isOwn = true := by
    cases hisOwn : st.isOwn with
    | true => rfl
    | false =>
      rw [places, hisOwn, hend] at honce
      cases honce
  exact ⟨hown, h.active hown⟩

theorem Lost.not_restored {st : State U} (h : Lost st) : ¬ Restored st := by
  rintro ⟨hown, -⟩
  rw [Lost, places, hown] at h
  simp at h

theorem countP_eraseIdx {guards : List (Held U)} {i : Nat} {held : Held U}
    (h : guards[i]? = some held) :
    guards.countP Held.keepsOwn =
      held.keepsOwn.toNat + (guards.eraseIdx i).countP Held.keepsOwn := by
  obtain ⟨hi, rfl⟩ := List.getElem?_eq_some_iff.mp h
  rw [← (List.getElem_cons_eraseIdx_perm hi).countP_eq, List.countP_cons]
  cases guards[i].keepsOwn <;> simp [Nat.add_comm]

/-- The places left by a drop: those there were, less the active one. -/
theorem places_drop {g : Globals U} {st : State U} {i : Nat} {held : Held U}
    (h : st.guards[i]? = some held) :
    places (step g st (.drop i)).1 + st.isOwn.toNat = places st := by
  have hcount := countP_eraseIdx h
  simp only [step, h, places]
  omega

theorem places_attached (r : Cell U × AttachGuard U) (st : State U) :
    places (attached r st) = places st := by
  simp only [places, attached, List.countP_append, List.countP_singleton]
  cases st.isOwn <;> simp [Nat.add_comm]

theorem Kept.attached {st : State U} (h : Kept st) {r : Cell U × AttachGuard U}
    (hr : r.2.prev = st.cell) : Kept (attached r st) := by
  refine ⟨?_, ?_, ?_⟩
  · rw [places_attached, h.once]
  · intro hown
    cases hown
  · intro held hheld hkeeps
    rcases List.mem_append.mp hheld with hheld | hheld
    · exact h.guarded held hheld hkeeps
    · obtain rfl := List.mem_singleton.mp hheld
      exact hr.trans (h.active hkeeps)

/-- **One step** that drops no guard over the own context keeps it. -/
theorem step_kept (g : Globals U) (st : State U) (op : Op U) (h : Kept st)
    (hop : DropsAttached st op) : Kept (step g st op).1 := by
  cases op with
  | apply f =>
    refine ⟨h.once, ?_, ?_⟩
    · intro hown
      show applyTo f st.cell = if st.isOwn then applyTo f st.own else st.own
      have hisOwn : st.isOwn = true := hown
      rw [if_pos hisOwn, h.active hisOwn]
    · intro held hheld hkeeps
      show held.guard.prev = if st.isOwn then applyTo f st.own else st.own
      have hisOwn : ¬ st.isOwn = true := fun hown => by
        have honce := h.once
        have hpos : 0 < st.guards.countP Held.keepsOwn :=
          List.countP_pos_iff.mpr ⟨held, hheld, hkeeps⟩
        rw [places, hown, Bool.toNat_true] at honce
        omega
      rw [if_neg hisOwn]
      exact h.guarded held hheld hkeeps
  | attachStore store => exact h.attached rfl
  | attachSnapshot snap => exact h.attached rfl
  | drop i =>
    cases hi : st.guards[i]? with
    | none => simpa only [step, hi] using h
    | some held =>
      have hmem : held ∈ st.guards := List.mem_of_getElem? hi
      have hown : st.isOwn = false := hop (by rw [hi]; rfl)
      have hplaces := places_drop (g := g) hi
      rw [hown, h.once] at hplaces
      refine ⟨hplaces, ?_, ?_⟩
      · intro hkeeps
        simp only [step, hi] at hkeeps ⊢
        exact h.guarded held hmem hkeeps
      · intro held' hheld' hkeeps
        simp only [step, hi] at hheld' ⊢
        exact h.guarded held' (List.mem_of_mem_eraseIdx hheld') hkeeps

/-- The drop of a guard over the own context loses it. -/
theorem step_loses (g : Globals U) (st : State U) (op : Op U) (h : Kept st)
    (hop : ¬ DropsAttached st op) : Lost (step g st op).1 := by
  cases op with
  | drop i =>
    obtain ⟨hsome, hown⟩ : st.guards[i]?.isSome ∧ ¬ st.isOwn = false := Classical.not_imp.mp hop
    obtain ⟨held, hi⟩ := Option.isSome_iff_exists.mp hsome
    have hplaces := places_drop (g := g) hi
    rw [Bool.eq_true_of_not_eq_false hown, Bool.toNat_true, h.once] at hplaces
    exact Nat.succ.inj hplaces
  | apply f => exact absurd trivial hop
  | attachStore store => exact absurd trivial hop
  | attachSnapshot snap => exact absurd trivial hop

/-- What is lost stays lost. -/
theorem step_lost (g : Globals U) (st : State U) (op : Op U) (h : Lost st) :
    Lost (step g st op).1 := by
  cases op with
  | apply f => exact h
  | attachStore store => exact (places_attached _ st).trans h
  | attachSnapshot snap => exact (places_attached _ st).trans h
  | drop i =>
    cases hi : st.guards[i]? with
    | none => simpa only [step, hi] using h
    | some held =>
      have hplaces := places_drop (g := g) hi
      rw [h] at hplaces
      exact (Nat.add_eq_zero_iff.mp hplaces).1

/-! ## Runs -/

/-- A context operation that spares the own context leaves what it holds. -/
theorem own_step (g : Globals U) (st : State U) (op : Op U) (hop : SparesOwn st op) :
    (step g st op).1.own = st.own := by
  cases op with
  | apply f =>
    have hown : ¬ st.isOwn = true := by
      rw [show st.isOwn = false from hop]
      exact Bool.false_ne_true
    exact if_neg hown
  | attachStore store => rfl
  | attachSnapshot snap => rfl
  | drop i =>
    simp only [step]
    cases st.guards[i]? <;> rfl

theorem restored_of_dropsAttached (g : Globals U) (s₀ : ContextStore U) (ops : List (Op U))
    (hend : (run (step g) (start s₀) ops).1.guards = [])
    (hdrops : Along (step g) DropsAttached (start s₀) ops) :
    Restored (run (step g) (start s₀) ops).1 := by
  have hkept : Kept (run (step g) (start s₀) ops).1 :=
    run_along (step_kept g) ops _ (start_kept s₀) hdrops
  exact hkept.restored_of_nil hend

/-- **A thread gets its own context back**: once all guards are dropped, in every run of attaches,
context operations and drops from every store, the own context is the active one exactly when no
guard was dropped while it was. What it holds is then what the run started with, but for the
operations that met it. -/
theorem own_context_restored_iff (g : Globals U) (s₀ : ContextStore U) (ops : List (Op U))
    (hend : (run (step g) (start s₀) ops).1.guards = []) :
    (Restored (run (step g) (start s₀) ops).1 ↔ Along (step g) DropsAttached (start s₀) ops) ∧
      (Along (step g) SparesOwn (start s₀) ops →
        (run (step g) (start s₀) ops).1.own = some s₀) := by
  refine ⟨⟨?_, ?_⟩, ?_⟩
  · intro hrestored
    by_contra hbroken
    have hlost : Lost (run (step g) (start s₀) ops).1 :=
      run_not_along (step_kept g) (step_loses g) (step_lost g) ops _ (start_kept s₀) hbroken
    exact hlost.not_restored hrestored
  · exact restored_of_dropsAttached g s₀ ops hend
  · intro hspares
    have hstep : ∀ st op, st.own = some s₀ → SparesOwn st op → (step g st op).1.own = some s₀ :=
      fun st op hown hop => by rw [own_step g st op hop, hown]
    exact run_along hstep ops _ rfl hspares

/-! ## Guards dropped newest first -/

/-- The own context is active when there are no guards, and otherwise in the oldest one. -/
structure Stacked (st : State U) : Prop where
  active : st.isOwn = st.guards.isEmpty
  newer : ∀ held ∈ st.guards.tail, held.keepsOwn = false

theorem Stacked.dropsAttached {st : State U} (h : Stacked st) (op : Op U) :
    DropsAttached st op := by
  cases op with
  | drop i =>
    intro hsome
    obtain ⟨held, hi⟩ := Option.isSome_iff_exists.mp hsome
    have hmem := List.mem_of_getElem? hi
    rw [h.active, List.isEmpty_eq_false_iff]
    exact List.ne_nil_of_mem hmem
  | apply f => trivial
  | attachStore store => trivial
  | attachSnapshot snap => trivial

theorem Stacked.attached {st : State U} (h : Stacked st) (r : Cell U × AttachGuard U) :
    Stacked (attached r st) := by
  refine ⟨by simp [Attaching.attached], ?_⟩
  intro held hheld
  cases hguards : st.guards with
  | nil =>
    rw [Attaching.attached, hguards] at hheld
    cases hheld
  | cons oldest newer =>
    have hown : st.isOwn = false := by
      rw [h.active, hguards]
      rfl
    rw [Attaching.attached, hguards, List.cons_append, List.tail_cons] at hheld
    rcases List.mem_append.mp hheld with hheld | hheld
    · exact h.newer held (by rwa [hguards])
    · obtain rfl := List.mem_singleton.mp hheld
      exact hown

/-- A step that drops the newest guard, if any, keeps the order. -/
theorem step_stacked (g : Globals U) (st : State U) (op : Op U) (hkept : Kept st)
    (h : Stacked st) (hop : DropsNewest st op) : Stacked (step g st op).1 := by
  cases op with
  | apply f => exact ⟨h.active, h.newer⟩
  | attachStore store => exact h.attached _
  | attachSnapshot snap => exact h.attached _
  | drop i =>
    have hlength : i + 1 = st.guards.length := hop
    have honce := hkept.once
    have hactive := h.active
    have hnewer := h.newer
    unfold places at honce
    cases hguards : st.guards with
    | nil =>
      rw [hguards] at hlength
      cases hlength
    | cons oldest newer =>
      rw [hguards] at hlength honce hactive hnewer
      rw [List.tail_cons] at hnewer
      have hnone : newer.countP Held.keepsOwn = 0 :=
        List.countP_eq_zero.mpr fun held hheld => by simp [hnewer held hheld]
      have holdest : oldest.keepsOwn = true := by
        rw [hactive, List.countP_cons, hnone] at honce
        by_contra hkeeps
        simp [hkeeps] at honce
      cases i with
      | zero =>
        obtain rfl : newer = [] := List.length_eq_zero_iff.mp (Nat.succ.inj hlength).symm
        simp only [step, hguards, List.getElem?_cons_zero, List.eraseIdx_cons_zero]
        exact ⟨holdest, fun held hheld => by cases hheld⟩
      | succ i =>
        have hi : i < newer.length := by
          rw [List.length_cons] at hlength
          omega
        have hheld : newer[i]? = some newer[i] := List.getElem?_eq_getElem hi
        simp only [step, hguards, List.getElem?_cons_succ, hheld, List.eraseIdx_cons_succ]
        refine ⟨hnewer _ (List.getElem_mem hi), fun held hmem => ?_⟩
        exact hnewer held (List.mem_of_mem_eraseIdx hmem)

/-- **Guards dropped newest first** give the thread its own context back. -/
theorem own_context_restored_of_newest (g : Globals U) (s₀ : ContextStore U) (ops : List (Op U))
    (hend : (run (step g) (start s₀) ops).1.guards = [])
    (hnewest : Along (step g) DropsNewest (start s₀) ops) :
    Restored (run (step g) (start s₀) ops).1 := by
  refine restored_of_dropsAttached g s₀ ops hend ?_
  have hstep : ∀ st op, Kept st ∧ Stacked st → DropsNewest st op →
      Kept (step g st op).1 ∧ Stacked (step g st op).1 := fun st op h hop =>
    ⟨step_kept g st op h.1 (h.2.dropsAttached op), step_stacked g st op h.1 h.2 hop⟩
  have hstart : Kept (start s₀) ∧ Stacked (start s₀) :=
    ⟨start_kept s₀, rfl, fun held hheld => by cases hheld⟩
  exact along_mono hstep (fun st op h _ => h.2.dropsAttached op) ops _ hstart hnewest

/-- Three attaches with a write to each attached store. The guard of the second one is dropped first
and that of the first one last. -/
def middleFirst : List (Op primitiveTypes) :=
  [.attachStore .new, .apply fun s => s.setValue "user" (u64Value 8), .attachSnapshot .empty,
    .apply fun s => s.setValue "user" (u64Value 9), .attachStore .new,
    .apply fun s => s.setValue "user" (u64Value 10), .drop 1, .drop 1, .drop 0]

/-- The thread has its own value back. -/
theorem own_context_restored_middleFirst :
    Restored (run (step (.withRegistry .empty))
        (start (ContextStore.new.setValue "user" (u64Value 7))) middleFirst).1 ∧
      (run (step (.withRegistry .empty)) (start (ContextStore.new.setValue "user" (u64Value 7)))
        middleFirst).1.own = some (ContextStore.new.setValue "user" (u64Value 7)) := by
  obtain ⟨hiff, hown⟩ := own_context_restored_iff (.withRegistry .empty)
    (ContextStore.new.setValue "user" (u64Value 7)) middleFirst rfl
  refine ⟨hiff.mpr ?_, hown ?_⟩
  · exact ⟨trivial, trivial, trivial, trivial, trivial, trivial, fun _ => rfl, fun _ => rfl,
      fun _ => rfl, trivial⟩
  · exact ⟨trivial, rfl, trivial, rfl, trivial, rfl, trivial, trivial, trivial, trivial⟩

/-- Two attaches on a thread of its own value, the older guard dropped first. -/
def oldestFirst : List (Op primitiveTypes) :=
  [.attachStore .new, .attachStore .new, .drop 0, .drop 0]

/-- With the older of two guards dropped first, the thread is left with the store it attached
first. -/
theorem oldestFirst_loses_own :
    (run (step (.withRegistry .empty)) (start (ContextStore.new.setValue "user" (u64Value 7)))
        oldestFirst).1.guards = [] ∧
      ¬ Restored (run (step (.withRegistry .empty))
        (start (ContextStore.new.setValue "user" (u64Value 7))) oldestFirst).1 ∧
      Thread.getContextVariable PrimitiveType.u64 "user"
        (run (step (.withRegistry .empty))
          (start (ContextStore.new.setValue "user" (u64Value 7))) oldestFirst).1.cell = none := by
  refine ⟨rfl, ?_, rfl⟩
  rintro ⟨hown, -⟩
  cases hown

end Attaching

end DContext
