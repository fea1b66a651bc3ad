import DContext.Thread.Context
import DContext.Store.Ownership

/-!
# User code and the empty cell

While an operation works on the store, the cell is empty. The values of a program run code of
their own when they are cloned and when their last reference goes away, and so does the callback
of an update. An operation is seen here as the phases it goes through, each with the content of
the cell and the user code that runs in it.

## Main definitions

* `UserCode`, `Phase U`: a call of user code, and the calls between two accesses to the cell
* `State U`, `Op U`: one thread with the values owned elsewhere, and its operations
* `phases st op`: the phases of an operation
* `FindsStore ps`: all user code in some phases finds a store in the cell
* `KeepsOwners st op`: no last reference is given up, and no value cloned, before the store is back

## Main results

* `findsStore_iff_tryApply`: what user code can do when it finds a store
* `userCode_finds_store_iff`: when all user code of an operation finds the store in its cell
* `keepsOwners_dropScopeGuard`: a guard that pops one scope never goes wrong
-/

namespace DContext

open Overlay

variable {U : TypeUniverse}

namespace UserCode

/-- A call of code that the program has brought along. -/
inductive Call
  /-- `Clone` of a stored value. -/
  | clone (arc : Nat)
  /-- `Drop` of a value whose last reference has gone away. -/
  | drop (arc : Nat)
  /-- The callback of an update. -/
  | callback
  deriving DecidableEq, Repr

/-- Calls of user code during which the cell has one content. A panic that leaves them meets no
code that writes the cell, so this is also what the cell holds after one. -/
structure Phase (U : TypeUniverse) where
  cell : Cell (arcTypes U)
  calls : Finset Call

/-- One thread: its cell, and the values that something else owns as well, be it another store, a
snapshot, a guard or another thread. -/
structure State (U : TypeUniverse) where
  cell : Cell (arcTypes U)
  held : Finset Nat

/-- The public operations. The callback of an update may act on the thread; what it returns comes
with the reference it will be stored under. -/
inductive Op (U : TypeUniverse)
  | getContextVariable (t : (arcTypes U).TypeId) (key : Key)
  | setContextVariable (t : (arcTypes U).TypeId) (key : Key) (value : (arcTypes U).El t)
  | updateContextVariable (t : (arcTypes U).TypeId) (key : Key)
      (f : U.El t → State U → (arcTypes U).El t × State U)
  | mergeWith (source : ContextStore (arcTypes U))
  | clear
  | dropScopeGuard (guard : ScopeGuard) (shared : List (ScopeNode (arcTypes U)) → Bool)
  | fork
  | capture (g : Globals (arcTypes U))
  | scopeChain (g : Globals (arcTypes U))

/-! ## The phases of an operation -/

/-- The drops of the values that are owned in `before` and neither in `after` nor elsewhere. -/
def drops (before after held : Finset Nat) : Finset Call :=
  (before \ (after ∪ held)).image .drop

/-- The closure of `try_apply`, which has `before` when the store is taken and leaves `after` when
it is put back. -/
def window (before after held : Finset Nat) : Phase U := ⟨none, drops before after held⟩

/-- `downcast_ref::<T>().cloned()`, inside the closure. -/
def cloned (t : (arcTypes U).TypeId) (key : Key) (s : ContextStore (arcTypes U)) : Finset Call :=
  match (s.getValue key).bind (·.downcast t) with
  | none => ∅
  | some value => {.clone (arcOf value)}

def getPhases (t : (arcTypes U).TypeId) (key : Key) (st : State U) : List (Phase U) :=
  match st.cell with
  | none => []
  | some s => [⟨none, cloned t key s ∪ drops s.arcs s.arcs st.held⟩]

def setPhases (t : (arcTypes U).TypeId) (key : Key) (value : (arcTypes U).El t) (st : State U) :
    List (Phase U) :=
  match st.cell with
  -- the closure is dropped unused, and the new value with it
  | none => [⟨none, {.drop (arcOf value)}⟩]
  -- what `set_value` returns is dropped at the end of the statement, inside the closure
  | some s =>
    [window (insert (arcOf value) s.arcs) (s.setValue key ⟨t, value⟩).arcs st.held]

def updatePhases (t : (arcTypes U).TypeId) (key : Key)
    (f : U.El t → State U → (arcTypes U).El t × State U) (st : State U) : List (Phase U) :=
  let old := ((Thread.getContextVariable t key st.cell).map derefOf).getD (U.default t)
  let r := f old st
  getPhases t key st ++ ⟨st.cell, {.callback}⟩ :: setPhases t key r.1 r.2

def mergePhases (source : ContextStore (arcTypes U)) (st : State U) : List (Phase U) :=
  match st.cell with
  | none => [⟨none, drops source.arcs ∅ st.held⟩]
  | some s =>
    let s' := s.mergeWith source
    -- the source lives until the function returns
    [window (s.arcs ∪ arcsOf source.collectValues) s'.arcs (source.arcs ∪ st.held),
      ⟨some s', drops source.arcs s'.arcs st.held⟩]

def clearPhases (st : State U) : List (Phase U) :=
  match st.cell with
  | none => []
  | some s => [window s.arcs (ContextStore.new : ContextStore (arcTypes U)).arcs st.held]

def dropScopeGuardPhases (guard : ScopeGuard)
    (shared : List (ScopeNode (arcTypes U)) → Bool) (st : State U) : List (Phase U) :=
  match st.cell with
  | none => []
  | some s =>
    if guard.expectedDepth = usizeMax then []
    else
      let r := s.popScope shared guard.expectedDepth
      let garbage := arcsOf ((r.2.map ScopeGarbage.oldValues).getD ∅)
      -- the garbage is dropped at the end of `leave_scope`, with the store back in its cell
      [window s.arcs (r.1.arcs ∪ garbage) st.held, ⟨some r.1, drops garbage r.1.arcs st.held⟩]

/-- The phases of the operations that hand out references and take none away. -/
def readPhases (given : ContextStore (arcTypes U) → Finset Nat) (st : State U) :
    List (Phase U) :=
  match st.cell with
  | none => []
  | some s => [window s.arcs (s.arcs ∪ given s) st.held]

/-- The phases of an operation, in order. -/
def phases (st : State U) : Op U → List (Phase U)
  | .getContextVariable t key => getPhases t key st
  | .setContextVariable t key value => setPhases t key value st
  | .updateContextVariable t key f => updatePhases t key f st
  | .mergeWith source => mergePhases source st
  | .clear => clearPhases st
  | .dropScopeGuard guard shared => dropScopeGuardPhases guard shared st
  | .fork => readPhases (fun s => s.forkChild.arcs) st
  | .capture g =>
    readPhases (fun s => arcsOf (captureWithRegistry g.maxScopeChainLen s g.registry).values) st
  | .scopeChain _ => readPhases (fun _ => ∅) st

/-- All user code of the phases finds a store in the cell. -/
def FindsStore (ps : List (Phase U)) : Prop :=
  ∀ p ∈ ps, ∀ call ∈ p.calls, p.cell.isSome

instance (ps : List (Phase U)) : Decidable (FindsStore ps) :=
  inferInstanceAs (Decidable (∀ p ∈ ps, ∀ call ∈ p.calls, p.cell.isSome))

/-! ## When user code finds the store -/

/-- No value of type `t` is there to be cloned. -/
def NothingToClone (t : (arcTypes U).TypeId) (key : Key) (st : State U) : Prop :=
  ∀ s ∈ st.cell, ∀ v, s.getValue key = some v → v.typeId ≠ t

/-- Every value that the entries of `n` replace in the active scope of `s` has another owner: one
of those in `others`, an entry of `n`, or the rest of the store. -/
def ReplacedOwned (s : ContextStore (arcTypes U)) (n : ValueMap (arcTypes U))
    (others : Finset Nat) : Prop :=
  ∀ k v, s.currentValues.lookup k = some v → k ∈ n →
    v.arc ∈ arcsOf n ∪ (s.without n).arcs ∪ others

/-- There is a store, and a value replaced by the new one has another owner. -/
def SetKeepsOwners (t : (arcTypes U).TypeId) (key : Key) (value : (arcTypes U).El t)
    (st : State U) : Prop :=
  ∃ s, st.cell = some s ∧ ReplacedOwned s (Finmap.singleton key ⟨t, value⟩) st.held

/-- Before the store is back in its cell nothing is cloned and no last reference is given up; the
callback of an update finds a store. -/
def KeepsOwners (st : State U) : Op U → Prop
  | .getContextVariable t key => NothingToClone t key st
  | .setContextVariable t key value => SetKeepsOwners t key value st
  | .updateContextVariable t key f =>
    let old := ((Thread.getContextVariable t key st.cell).map derefOf).getD (U.default t)
    NothingToClone t key st ∧ st.cell.isSome ∧ SetKeepsOwners t key (f old st).1 (f old st).2
  | .mergeWith source =>
    match st.cell with
    | none => source.arcs ⊆ st.held
    | some s => ReplacedOwned s source.collectValues (source.arcs ∪ st.held)
  | .clear => ∀ s ∈ st.cell, s.arcs ⊆ st.held
  | .dropScopeGuard guard _ =>
    -- a popped value is overwritten in the garbage by an outer popped scope only if it is owned
    ∀ s ∈ st.cell, guard.expectedDepth ≠ usizeMax →
      let popped := s.poppedFrames guard.expectedDepth
      let kept := s.ownFrames.drop popped.length ++ s.inheritedFrames
      frameArcs popped ⊆
        arcsOf (flatten (popped.map Frame.values).reverse) ∪ frameArcs kept ∪ st.held
  | .fork | .capture _ | .scopeChain _ => True

/-- User code finds a store exactly when whatever it does to the context is done to one. -/
theorem findsStore_iff_tryApply (ps : List (Phase U)) :
    FindsStore ps ↔ ∀ p ∈ ps, ∀ call ∈ p.calls,
      ∀ {R : Type} (f : ContextStore (arcTypes U) → ContextStore (arcTypes U) × R),
        (tryApply p.cell f).2.isSome := by
  constructor
  · intro h p hp call hcall R f
    obtain ⟨s, hs⟩ := Option.isSome_iff_exists.mp (h p hp call hcall)
    rw [hs]
    rfl
  · intro h p hp call hcall
    have hread := h p hp call hcall fun s => (s, ())
    cases hs : p.cell with
    | none =>
      rw [hs] at hread
      exact hread
    | some s => rfl

@[simp] theorem findsStore_nil : FindsStore ([] : List (Phase U)) := fun p hp => by cases hp

@[simp] theorem findsStore_cons (p : Phase U) (ps : List (Phase U)) :
    FindsStore (p :: ps) ↔ (∀ call ∈ p.calls, p.cell.isSome) ∧ FindsStore ps :=
  List.forall_mem_cons

@[simp] theorem findsStore_append (ps qs : List (Phase U)) :
    FindsStore (ps ++ qs) ↔ FindsStore ps ∧ FindsStore qs :=
  List.forall_mem_append

/-- While the store is taken no last reference may be given up. -/
@[simp] theorem window_finds_iff (before after held : Finset Nat) :
    (∀ call ∈ (window before after held : Phase U).calls,
        (window before after held : Phase U).cell.isSome) ↔ before ⊆ after ∪ held := by
  rw [← Finset.sdiff_eq_empty_iff_subset]
  constructor
  · intro h
    by_contra hne
    obtain ⟨a, ha⟩ := Finset.nonempty_iff_ne_empty.mpr hne
    have hnone : (none : Cell (arcTypes U)).isSome := h (.drop a) (Finset.mem_image_of_mem _ ha)
    cases hnone
  · intro h call hcall
    have hempty : (window before after held : Phase U).calls = ∅ := by
      rw [window, drops, h, Finset.image_empty]
    rw [hempty] at hcall
    cases hcall

/-! ## One operation at a time -/

theorem cloned_eq_empty_iff (t : (arcTypes U).TypeId) (key : Key)
    (s : ContextStore (arcTypes U)) :
    cloned t key s = ∅ ↔ ∀ v, s.getValue key = some v → v.typeId ≠ t := by
  unfold cloned
  cases hv : s.getValue key with
  | none => simp
  | some v =>
    rw [Option.bind_some]
    cases hd : v.downcast t with
    | none =>
      have htype : v.typeId ≠ t := fun he => by
        have hsome := ContextValue.downcast_isSome.mpr he
        rw [hd] at hsome
        cases hsome
      refine iff_of_true rfl ?_
      rintro w ⟨⟩
      exact htype
    | some value =>
      have htype : v.typeId = t := ContextValue.downcast_isSome.mp (by rw [hd]; rfl)
      refine iff_of_false (Finset.singleton_ne_empty _) ?_
      intro h
      exact h v rfl htype

/-- A read clones inside the window. -/
theorem getPhases_finds_iff (t : (arcTypes U).TypeId) (key : Key) (st : State U) :
    FindsStore (getPhases t key st) ↔ NothingToClone t key st := by
  unfold getPhases NothingToClone
  cases st.cell with
  | none => simp
  | some s =>
    have hdrops : drops s.arcs s.arcs st.held = ∅ := by
      rw [drops, Finset.sdiff_eq_empty_iff_subset.mpr Finset.subset_union_left, Finset.image_empty]
    dsimp only
    rw [hdrops, Finset.union_empty]
    simp only [Option.mem_def, Option.some.injEq, forall_eq', ← cloned_eq_empty_iff]
    simp [Finset.eq_empty_iff_forall_notMem]

/-- Overwriting the active scope drops nothing in the window when what it replaces is owned. -/
theorem overwrite_keeps_iff (s : ContextStore (arcTypes U)) (n : ValueMap (arcTypes U))
    (others : Finset Nat) :
    arcsOf n ∪ s.arcs ⊆ (s.overwrite n).arcs ∪ others ↔ ReplacedOwned s n others := by
  rw [ContextStore.arcs_overwrite]
  constructor
  · intro h k v hk hn
    refine h (Finset.mem_union_right _ ?_)
    exact (s.mem_arcs_iff_without n v.arc).mpr (.inl ⟨k, v, hk, hn, rfl⟩)
  · intro h a ha
    rw [Finset.mem_union, s.mem_arcs_iff_without n] at ha
    rcases ha with ha | ⟨k, v, hk, hn, rfl⟩ | ha
    · exact Finset.mem_union_left _ (Finset.mem_union_left _ ha)
    · exact h k v hk hn
    · exact Finset.mem_union_left _ (Finset.mem_union_right _ ha)

theorem arcsOf_singleton (t : (arcTypes U).TypeId) (key : Key) (value : (arcTypes U).El t) :
    arcsOf (Finmap.singleton key (⟨t, value⟩ : ContextValue (arcTypes U))) = {arcOf value} := rfl

theorem setPhases_finds_iff (t : (arcTypes U).TypeId) (key : Key) (value : (arcTypes U).El t)
    (st : State U) :
    FindsStore (setPhases t key value st) ↔ SetKeepsOwners t key value st := by
  unfold setPhases SetKeepsOwners
  cases st.cell with
  | none => simp
  | some s =>
    rw [findsStore_cons, window_finds_iff, ContextStore.setValue_eq_overwrite, Finset.insert_eq,
      ← arcsOf_singleton t key value, overwrite_keeps_iff]
    simp

theorem updatePhases_finds_iff (t : (arcTypes U).TypeId) (key : Key)
    (f : U.El t → State U → (arcTypes U).El t × State U) (st : State U) :
    FindsStore (updatePhases t key f st) ↔
      KeepsOwners st (.updateContextVariable t key f) := by
  unfold updatePhases KeepsOwners
  rw [findsStore_append, findsStore_cons, getPhases_finds_iff, setPhases_finds_iff]
  simp

theorem mergePhases_finds_iff (source : ContextStore (arcTypes U)) (st : State U) :
    FindsStore (mergePhases source st) ↔ KeepsOwners st (.mergeWith source) := by
  unfold mergePhases KeepsOwners
  cases st.cell with
  | none =>
    have hwindow := window_finds_iff (U := U) source.arcs ∅ st.held
    rw [Finset.empty_union] at hwindow
    exact (findsStore_cons _ _).trans ((and_iff_left findsStore_nil).trans hwindow)
  | some s =>
    rw [findsStore_cons, window_finds_iff, Finset.union_comm s.arcs,
      ContextStore.mergeWith_eq_overwrite, overwrite_keeps_iff]
    simp

theorem clearPhases_finds_iff (st : State U) :
    FindsStore (clearPhases st) ↔ KeepsOwners st .clear := by
  unfold clearPhases KeepsOwners
  cases st.cell with
  | none => simp
  | some s =>
    rw [findsStore_cons, window_finds_iff, ContextStore.arcs_new, Finset.empty_union]
    simp

/-- A pop takes apart what the store owns: the popped scopes, and what is left. -/
theorem arcs_eq_popped_union {s : ContextStore (arcTypes U)} (h : s.WellFormed)
    (shared : List (ScopeNode (arcTypes U)) → Bool) (e : Nat) :
    s.arcs = frameArcs (s.poppedFrames e) ∪ (s.popScope shared e).1.arcs := by
  rw [ContextStore.arcs, ContextStore.arcs, h.inheritedFrames_popScope, ← frameArcs_append,
    ← List.append_assoc, ← h.ownFrames_eq_popped_append]

theorem dropScopeGuardPhases_finds_iff (guard : ScopeGuard)
    (shared : List (ScopeNode (arcTypes U)) → Bool) {st : State U}
    (hst : ∀ s ∈ st.cell, s.WellFormed) :
    FindsStore (dropScopeGuardPhases guard shared st) ↔
      KeepsOwners st (.dropScopeGuard guard shared) := by
  unfold dropScopeGuardPhases KeepsOwners
  cases hcell : st.cell with
  | none => simp
  | some s =>
    have hwf : s.WellFormed := hst s hcell
    dsimp only
    split_ifs with hnoop
    · simp [hnoop]
    · have hframes : s.ownFrames.drop (s.poppedFrames guard.expectedDepth).length =
          (s.popScope shared guard.expectedDepth).1.ownFrames := by
        conv_lhs => rw [hwf.ownFrames_eq_popped_append shared guard.expectedDepth]
        exact List.drop_left
      have hkept : frameArcs (s.ownFrames.drop (s.poppedFrames guard.expectedDepth).length ++
          s.inheritedFrames) = (s.popScope shared guard.expectedDepth).1.arcs := by
        rw [hframes, ← hwf.inheritedFrames_popScope shared guard.expectedDepth]
        rfl
      rw [findsStore_cons, window_finds_iff, hwf.garbage_popScope, arcs_eq_popped_union hwf shared]
      constructor
      · rintro ⟨hwindow, -⟩ s' hs' -
        obtain rfl := Option.some.inj hs'
        rw [hkept, Finset.union_comm (arcsOf _)]
        exact Finset.union_subset_left hwindow
      · intro h
        have hpopped := h s rfl hnoop
        rw [hkept, Finset.union_comm (arcsOf _)] at hpopped
        refine ⟨Finset.union_subset hpopped ?_, by simp⟩
        exact Finset.subset_union_left.trans Finset.subset_union_left

theorem readPhases_finds (given : ContextStore (arcTypes U) → Finset Nat) (st : State U) :
    FindsStore (readPhases given st) := by
  unfold readPhases
  cases st.cell with
  | none => simp
  | some s =>
    rw [findsStore_cons, window_finds_iff]
    refine ⟨?_, findsStore_nil⟩
    exact Finset.subset_union_left.trans Finset.subset_union_left

/-- **User code finds the store** in its cell, for every operation on a thread with a reachable
store or none, exactly when the operation clones no value and gives up no last reference while it
works on the store. -/
theorem userCode_finds_store_iff {st : State U} (hst : ∀ s ∈ st.cell, s.Reachable) (op : Op U) :
    FindsStore (phases st op) ↔ KeepsOwners st op := by
  cases op with
  | getContextVariable t key => exact getPhases_finds_iff t key st
  | setContextVariable t key value => exact setPhases_finds_iff t key value st
  | updateContextVariable t key f => exact updatePhases_finds_iff t key f st
  | mergeWith source => exact mergePhases_finds_iff source st
  | clear => exact clearPhases_finds_iff st
  | dropScopeGuard guard shared =>
    exact dropScopeGuardPhases_finds_iff guard shared fun s hs => (hst s hs).wellFormed
  | fork => exact iff_of_true (readPhases_finds _ st) trivial
  | capture g => exact iff_of_true (readPhases_finds _ st) trivial
  | scopeChain g => exact iff_of_true (readPhases_finds _ st) trivial

/-- A guard that pops at most one scope gives up no last reference in the window: what it pops is
its garbage. -/
theorem keepsOwners_dropScopeGuard (guard : ScopeGuard)
    (shared : List (ScopeNode (arcTypes U)) → Bool) {st : State U}
    (hst : ∀ s ∈ st.cell, s.Reachable ∧ s.depth ≤ guard.expectedDepth) :
    KeepsOwners st (.dropScopeGuard guard shared) := by
  intro s hs hnoop
  obtain ⟨hreach, hdepth⟩ := hst s hs
  have hlength : (s.poppedFrames guard.expectedDepth).length ≤ 1 := by
    have hlen := hreach.wellFormed.length_ownFrames
    unfold ContextStore.poppedFrames
    split_ifs
    · exact Nat.zero_le 1
    · rw [List.length_take]
      omega
  refine Finset.Subset.trans ?_ (Finset.union_subset_left (Finset.Subset.refl _))
  refine Finset.Subset.trans ?_ Finset.subset_union_left
  rcases hpopped : s.poppedFrames guard.expectedDepth with - | ⟨f, fs⟩
  · exact Finset.empty_subset _
  · rw [hpopped, List.length_cons] at hlength
    obtain rfl : fs = [] := List.length_eq_zero_iff.mp (by omega)
    intro a ha
    simpa [Finmap.union_empty] using ha

/-- A number in an allocation. -/
def numberIn (arc : Nat) (n : UInt64) : (arcTypes primitiveTypes).El PrimitiveType.u64 := (arc, n)

/-- A thread that holds one number, with the allocations that are owned elsewhere as well. -/
def oneNumber (held : Finset Nat) : State primitiveTypes where
  cell := some (ContextStore.new.setValue "user" ⟨PrimitiveType.u64, numberIn 0 7⟩)
  held := held

theorem oneNumber_reachable (held : Finset Nat) : ∀ s ∈ (oneNumber held).cell, s.Reachable := by
  rintro s ⟨⟩
  exact ContextStore.Reachable.new.setValue "user" _

/-- Clearing a context whose one value a snapshot still holds. -/
theorem userCode_finds_store_number : FindsStore (phases (oneNumber {0}) .clear) :=
  (userCode_finds_store_iff (oneNumber_reachable {0}) .clear).mpr (by
    rintro s ⟨⟩
    decide)

/-- The same key in two nested scopes. -/
def twoScopes : State primitiveTypes where
  cell :=
    let s := ((ContextStore.new.pushScope Registry.empty (some "outer")).1.setValue "user"
      ⟨PrimitiveType.u64, numberIn 0 7⟩)
    some ((s.pushScope Registry.empty (some "inner")).1.setValue "user"
      ⟨PrimitiveType.u64, numberIn 1 8⟩)
  held := ∅

/-- A read clones, a write drops the value it replaces, `clear` drops the whole store, and a pop of
two scopes drops the value that the outer one overwrites in the garbage, all while the cell is
empty. -/
theorem userCode_misses_store :
    (∀ s ∈ (oneNumber ∅).cell, s.Reachable) ∧
      ¬ FindsStore (phases (oneNumber ∅) (.getContextVariable PrimitiveType.u64 "user")) ∧
      ¬ FindsStore (phases (oneNumber ∅)
        (.setContextVariable PrimitiveType.u64 "user" (numberIn 1 8))) ∧
      ¬ FindsStore (phases (oneNumber ∅) .clear) ∧
      (∀ s ∈ twoScopes.cell, s.Reachable) ∧
      ¬ FindsStore (phases twoScopes (.dropScopeGuard ⟨2⟩ fun _ => false)) := by
  refine ⟨oneNumber_reachable ∅, by decide, by decide, by decide, ?_, by decide⟩
  rintro s ⟨⟩
  exact (((ContextStore.Reachable.new.pushScope Registry.empty (some "outer")).setValue "user" _
    ).pushScope Registry.empty (some "inner")).setValue "user" _

end UserCode

end DContext
