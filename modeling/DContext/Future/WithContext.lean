import DContext.Thread.Context

/-!
# Futures with a context

A wrapped future owns a store. Each poll swaps it into the cell of the polling thread, polls the
inner future, and swaps it back out, if the inner poll comes back: a panic leaves the poll between
the two swaps.

## Main definitions

* `Exit O`: how control leaves a poll
* `WithContext F U`, `WithContext.poll`: a wrapped future and its poll
* `Observed F O U`, `observe`: a future with the record of its polls
* `Future.attach`, `Future.fork`, `Future.scope`, ...: the combinators of `ContextFutureExt`
* `Nested F U n`, `nestedPoll`: a future wrapped `n` times

## Main results

* `poll_cell_iff`: when a poll leaves the cell as it found it
* `nestedPoll_cell_iff`: the same for a future wrapped any number of times
-/

namespace DContext

open Overlay

variable {U : TypeUniverse} {F O : Type}

/-- `Poll<O>`. -/
inductive Poll (O : Type)
  | ready (output : O)
  | pending
  deriving DecidableEq, Repr

/-- How control leaves a poll: with a result, or by unwinding. -/
inductive Exit (O : Type)
  | returned (result : Poll O)
  | unwound
  deriving DecidableEq, Repr

/-- What polling does: from the future and the content of the cell, the way control leaves, and
the future and the cell then. -/
abbrev PollFn (F O : Type) (U : TypeUniverse) := F → Cell U → Exit O × F × Cell U

/-- A future wrapped with a store. -/
structure WithContext (F : Type) (U : TypeUniverse) where
  inner : F
  store : Option (ContextStore U)

namespace WithContext

/-- The first swap of `poll`: the store goes into the cell, whose content is kept in `prev`, the
last component. -/
def swapIn (w : WithContext F U) (cell : Cell U) : WithContext F U × Cell U × Cell U :=
  ({ w with store := none }, w.store, cell)

/-- The second swap of `poll`: `prev` goes back into the cell, whose content is kept as the
store. -/
def swapOut (w : WithContext F U) (cell prev : Cell U) : WithContext F U × Cell U :=
  ({ w with store := cell }, prev)

/-- `WithContext::poll`. -/
def poll (innerPoll : PollFn F O U) : PollFn (WithContext F U) O U := fun w cell =>
  let (w, cell, prev) := w.swapIn cell
  match innerPoll w.inner cell with
  | (.returned result, inner, cell) =>
    let (w, cell) := { w with inner := inner }.swapOut cell prev
    (.returned result, w, cell)
  -- unwinding drops `prev` and skips the second swap
  | (.unwound, inner, cell) => (.unwound, { w with inner := inner }, cell)

end WithContext

/-- A future with the record of its polls: what each found in the cell, and how it ended. -/
structure Observed (F O : Type) (U : TypeUniverse) where
  future : F
  log : List (Cell U × Exit O)

/-- Polling a future and recording it. -/
def observe (innerPoll : PollFn F O U) : PollFn (Observed F O U) O U := fun o cell =>
  let r := innerPoll o.future cell
  (r.1, ⟨r.2.1, o.log ++ [(cell, r.1)]⟩, r.2.2)

/-! ## Combinators -/

namespace Future

/-- `with`. -/
def withStore (fut : F) (store : ContextStore U) : WithContext F U := ⟨fut, some store⟩

/-- `attach`. -/
def attach (g : Globals U) (fut : F) (snap : ContextSnapshot U) : WithContext F U :=
  withStore fut (storeFromSnapshotWithRegistry snap g.registry)

/-- `fork`, called on a thread with this cell. -/
def fork (fut : F) (cell : Cell U) : WithContext F U := withStore fut (Thread.fork cell)

/-- `capture`, called on a thread with this cell. -/
def capture (g : Globals U) (fut : F) (cell : Cell U) : WithContext F U :=
  withStore fut (storeFromSnapshotWithRegistry (Thread.capture g cell) g.registry)

/-- `scope`, called on a thread with this cell. -/
def scope (g : Globals U) (fut : F) (name : String) (cell : Cell U) : WithContext F U :=
  withStore fut ((Thread.fork cell).pushScope g.registry (some name)).1

end Future

/-! ## What a poll leaves in the cell -/

namespace WithContext

/-- A poll whose inner poll returns puts the cell back and keeps what the inner poll left there. -/
theorem poll_of_returned {innerPoll : PollFn F O U} {w : WithContext F U} {cell : Cell U}
    {result : Poll O} {inner : F} {left : Cell U}
    (h : innerPoll w.inner w.store = (.returned result, inner, left)) :
    w.poll innerPoll cell = (.returned result, ⟨inner, left⟩, cell) := by
  simp only [poll, swapIn, h, swapOut]

/-- A poll whose inner poll unwinds leaves in the cell what the inner poll left there. -/
theorem poll_of_unwound {innerPoll : PollFn F O U} {w : WithContext F U} {cell : Cell U}
    {inner : F} {left : Cell U} (h : innerPoll w.inner w.store = (.unwound, inner, left)) :
    w.poll innerPoll cell = (.unwound, ⟨inner, none⟩, left) := by
  simp only [poll, swapIn, h]

/-- **A poll leaves the cell as it found it** exactly when the inner poll returns, or unwinds with
that very content in the cell. -/
theorem poll_cell_iff (innerPoll : PollFn F O U) (w : WithContext F U) (cell : Cell U) :
    (w.poll innerPoll cell).2.2 = cell ↔
      (∃ result, (innerPoll w.inner w.store).1 = .returned result) ∨
        (innerPoll w.inner w.store).2.2 = cell := by
  rcases h : innerPoll w.inner w.store with ⟨exit, inner, left⟩
  cases exit with
  | returned result => simp [poll_of_returned h]
  | unwound => simp [poll_of_unwound h]

end WithContext

/-! ## Nested wrappers -/

/-- A future wrapped `n` times. -/
def Nested (F : Type) (U : TypeUniverse) : Nat → Type
  | 0 => F
  | n + 1 => WithContext (Nested F U n) U

/-- Polling a future wrapped `n` times. -/
def nestedPoll (innerPoll : PollFn F O U) : (n : Nat) → PollFn (Nested F U n) O U
  | 0 => innerPoll
  | n + 1 => WithContext.poll (nestedPoll innerPoll n)

/-- The future inside all the wrappers. -/
def Nested.future : (n : Nat) → Nested F U n → F
  | 0, fut => fut
  | n + 1, w => future n (WithContext.inner w)

/-- The store of the innermost wrapper. -/
def Nested.store : (n : Nat) → Nested F U (n + 1) → Cell U
  | 0, w => WithContext.store w
  | n + 1, w => store n (WithContext.inner w)

/-- Every wrapper ends as the future inside does, and a panic leaves in the cell what the future
inside left there. The induction is on the number of wrappers. -/
theorem nestedPoll_exit (innerPoll : PollFn F O U) (n : Nat) :
    ∀ (w : Nested F U (n + 1)) (cell : Cell U),
      (nestedPoll innerPoll (n + 1) w cell).1 =
          (innerPoll (Nested.future (n + 1) w) (Nested.store n w)).1 ∧
        ((innerPoll (Nested.future (n + 1) w) (Nested.store n w)).1 = .unwound →
          (nestedPoll innerPoll (n + 1) w cell).2.2 =
            (innerPoll (Nested.future (n + 1) w) (Nested.store n w)).2.2) := by
  have hstep : ∀ {G : Type} (pollG : PollFn G O U) (w : WithContext G U) (cell : Cell U),
      (w.poll pollG cell).1 = (pollG w.inner w.store).1 ∧
        ((pollG w.inner w.store).1 = .unwound →
          (w.poll pollG cell).2.2 = (pollG w.inner w.store).2.2) := by
    intro G pollG w cell
    rcases h : pollG w.inner w.store with ⟨exit, inner, left⟩
    cases exit with
    | returned result => simp [WithContext.poll_of_returned h]
    | unwound => simp [WithContext.poll_of_unwound h]
  induction n with
  | zero => exact fun w cell => hstep innerPoll w cell
  | succ n ih =>
    intro w cell
    obtain ⟨hexit, hcell⟩ := hstep (nestedPoll innerPoll (n + 1)) w cell
    obtain ⟨hexit', hcell'⟩ := ih (WithContext.inner w) (WithContext.store w)
    refine ⟨hexit.trans hexit', ?_⟩
    intro hunwound
    exact (hcell (hexit'.trans hunwound)).trans (hcell' hunwound)

/-- **A poll of a wrapped future**, wrapped any number of times, leaves the cell of the thread as
it found it exactly when the future inside returns, or unwinds with that very content in the
cell. -/
theorem nestedPoll_cell_iff (innerPoll : PollFn F O U) (n : Nat) (w : Nested F U (n + 1))
    (cell : Cell U) :
    (nestedPoll innerPoll (n + 1) w cell).2.2 = cell ↔
      (∃ result, (innerPoll (Nested.future (n + 1) w) (Nested.store n w)).1 = .returned result) ∨
        (innerPoll (Nested.future (n + 1) w) (Nested.store n w)).2.2 = cell := by
  cases n with
  | zero => exact WithContext.poll_cell_iff innerPoll w cell
  | succ n =>
    obtain ⟨hexit, hcell⟩ := nestedPoll_exit innerPoll n (WithContext.inner w) (WithContext.store w)
    refine (WithContext.poll_cell_iff (nestedPoll innerPoll (n + 1)) w cell).trans ?_
    show _ ↔ (∃ result, (innerPoll (Nested.future (n + 1) (WithContext.inner w))
        (Nested.store n (WithContext.inner w))).1 = .returned result) ∨
      (innerPoll (Nested.future (n + 1) (WithContext.inner w))
        (Nested.store n (WithContext.inner w))).2.2 = cell
    rw [hexit]
    cases hin : (innerPoll (Nested.future (n + 1) (WithContext.inner w))
        (Nested.store n (WithContext.inner w))).1 with
    | returned result => simp
    | unwound => rw [hcell hin]

/-- A future whose poll panics at once. -/
def panicking : PollFn Unit Unit primitiveTypes := fun fut cell => (.unwound, fut, cell)

/-- A task of that future, in a context with one value. -/
def panickingTask : WithContext Unit primitiveTypes :=
  Future.withStore () (ContextStore.new.setValue "user" (u64Value 7))

/-- A panic in the future leaves its value on the thread, in place of the thread's own store. -/
theorem panicking_leaks :
    (nestedPoll panicking 1 panickingTask (some .new)).2.2 ≠ some .new ∧
      Thread.getContextVariable PrimitiveType.u64 "user"
          (nestedPoll panicking 1 panickingTask (some .new)).2.2 = some (7 : UInt64) ∧
      Thread.getContextVariable PrimitiveType.u64 "user" (some .new : Cell primitiveTypes) =
        none := by
  have hleak : Thread.getContextVariable PrimitiveType.u64 "user"
      (nestedPoll panicking 1 panickingTask (some .new)).2.2 = some (7 : UInt64) := rfl
  have hclean : Thread.getContextVariable PrimitiveType.u64 "user"
      (some .new : Cell primitiveTypes) = none := rfl
  refine ⟨?_, hleak, hclean⟩
  intro h
  rw [h, hclean] at hleak
  cases hleak

end DContext
