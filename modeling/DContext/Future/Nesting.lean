import DContext.Future.WithContext
import DContext.System.Run

/-!
# Wrapping again

A future that is wrapped several times runs in the store of the innermost wrapper. The others swap
their stores in and out around it, so wrapping again changes nothing, over any number of polls and
across panics: whichever combinator was applied first decides on the context.

## Main definitions

* `pollStep poll`: polls as steps of a system, on whatever the cell holds at each
* `Nested.core n w`: the future inside with the store of the innermost wrapper alone
* `Nested.outer n w`: the stores of the other wrappers

## Main results

* `nestedPoll_core`: a poll does to the core what a single wrapper does
* `nested_inert`: the same for runs of polls
-/

namespace DContext

open StepSystem

variable {U : TypeUniverse} {F O : Type}

/-- A poll on a thread with this cell, which answers how it ends and what it leaves there. -/
def pollStep (poll : PollFn F O U) (fut : F) (cell : Cell U) : F × (Exit O × Cell U) :=
  let r := poll fut cell
  (r.2.1, (r.1, r.2.2))

/-- The future inside, wrapped with the store of the innermost wrapper alone. -/
def Nested.core (n : Nat) (w : Nested F U (n + 1)) : WithContext F U :=
  ⟨Nested.future (n + 1) w, Nested.store n w⟩

/-- The stores of the wrappers around the innermost one, from the outside. -/
def Nested.outer : (n : Nat) → Nested F U (n + 1) → List (Cell U)
  | 0, _ => []
  | n + 1, w => WithContext.store w :: outer n (WithContext.inner w)

/-- A wrapper polls in the same way on every cell, up to the cell that it puts back. -/
theorem WithContext.poll_cell (innerPoll : PollFn F O U) (w : WithContext F U)
    (cell cell' : Cell U) :
    (w.poll innerPoll cell).1 = (w.poll innerPoll cell').1 ∧
      (w.poll innerPoll cell).2.1 = (w.poll innerPoll cell').2.1 ∧
      ((w.poll innerPoll cell).1 = .unwound →
        (w.poll innerPoll cell).2.2 = (w.poll innerPoll cell').2.2) := by
  rcases h : innerPoll w.inner w.store with ⟨exit, inner, left⟩
  cases exit with
  | returned result => simp [poll_of_returned h]
  | unwound => simp [poll_of_unwound h]

/-- A wrapper ends as the future inside does. -/
theorem WithContext.poll_exit (innerPoll : PollFn F O U) (w : WithContext F U) (cell : Cell U) :
    (w.poll innerPoll cell).1 = (innerPoll w.inner w.store).1 := by
  rcases h : innerPoll w.inner w.store with ⟨exit, inner, left⟩
  cases exit with
  | returned result => rw [poll_of_returned h]
  | unwound => rw [poll_of_unwound h]

/-- **A poll does to the core what a single wrapper does**, and leaves the other stores in place if
it returns. The induction is on the number of wrappers: each finds in the one inside a single
wrapper, polled on its own store. -/
theorem nestedPoll_core (innerPoll : PollFn F O U) (n : Nat) :
    ∀ (w : Nested F U (n + 1)) (cell : Cell U),
      (nestedPoll innerPoll (n + 1) w cell).1 = ((Nested.core n w).poll innerPoll cell).1 ∧
        Nested.core n (nestedPoll innerPoll (n + 1) w cell).2.1 =
          ((Nested.core n w).poll innerPoll cell).2.1 ∧
        (nestedPoll innerPoll (n + 1) w cell).2.2 = ((Nested.core n w).poll innerPoll cell).2.2 ∧
        ((nestedPoll innerPoll (n + 1) w cell).1 ≠ .unwound →
          Nested.outer n (nestedPoll innerPoll (n + 1) w cell).2.1 = Nested.outer n w) := by
  induction n with
  | zero => exact fun w cell => ⟨rfl, rfl, rfl, fun _ => rfl⟩
  | succ n ih =>
    intro w cell
    obtain ⟨hexit, hcore, hleft, houter⟩ := ih (WithContext.inner w) (WithContext.store w)
    obtain ⟨hexit', hcore', hleft'⟩ := WithContext.poll_cell innerPoll
      (Nested.core n (WithContext.inner w)) (WithContext.store w) cell
    rcases hinner : nestedPoll innerPoll (n + 1) (WithContext.inner w) (WithContext.store w) with
      ⟨exit, inner, left⟩
    rw [hinner] at hexit hcore hleft houter
    dsimp only at hexit hcore hleft houter
    cases exit with
    | returned result =>
      have hpoll : nestedPoll innerPoll (n + 2) w cell = (.returned result, ⟨inner, left⟩, cell) :=
        WithContext.poll_of_returned hinner
      have hsingle := hexit.trans hexit'
      have hback : left = WithContext.store w ∧
          ((Nested.core n (WithContext.inner w)).poll innerPoll cell).2.2 = cell := by
        constructor
        · rw [hleft]
          exact (WithContext.poll_cell_iff innerPoll _ _).mpr
            (.inl ⟨result, (WithContext.poll_exit innerPoll _ _).symm.trans hexit.symm⟩)
        · exact (WithContext.poll_cell_iff innerPoll _ _).mpr
            (.inl ⟨result, (WithContext.poll_exit innerPoll _ _).symm.trans hsingle.symm⟩)
      rw [hpoll]
      refine ⟨hsingle, hcore.trans hcore', hback.2.symm, fun _ => ?_⟩
      show left :: Nested.outer n inner = WithContext.store w :: Nested.outer n _
      rw [hback.1, houter nofun]
    | unwound =>
      have hpoll : nestedPoll innerPoll (n + 2) w cell = (.unwound, ⟨inner, none⟩, left) :=
        WithContext.poll_of_unwound hinner
      rw [hpoll]
      exact ⟨hexit.trans hexit', hcore.trans hcore', hleft.trans (hleft' hexit.symm),
        fun h => absurd rfl h⟩

/-- **Wrapping again changes nothing.** However often a future is wrapped, and whatever the threads
that poll it hold in their cells, its polls end as under the innermost wrapper alone, leave the same
in the cells, and come to the same future with the same store, also after polls that panic. As long
as none does, the other wrappers keep the stores they were made with. -/
theorem nested_inert (innerPoll : PollFn F O U) (n : Nat) (w : Nested F U (n + 1))
    (cells : List (Cell U)) :
    let nested := run (pollStep (nestedPoll innerPoll (n + 1))) w cells
    let single := run (pollStep (WithContext.poll innerPoll)) (Nested.core n w) cells
    nested.2 = single.2 ∧ Nested.core n nested.1 = single.1 ∧
      ((∀ reply ∈ nested.2, reply.1 ≠ .unwound) → Nested.outer n nested.1 = Nested.outer n w) := by
  intro nested single
  induction cells generalizing w with
  | nil => exact ⟨rfl, rfl, fun _ => rfl⟩
  | cons cell cells ih =>
    obtain ⟨hexit, hcore, hleft, houter⟩ := nestedPoll_core innerPoll n w cell
    obtain ⟨hreplies, hlast, hstores⟩ := ih (nestedPoll innerPoll (n + 1) w cell).2.1
    rw [hcore] at hreplies hlast
    refine ⟨?_, hlast, fun hnone => ?_⟩
    · exact List.cons_eq_cons.mpr ⟨Prod.ext hexit hleft, hreplies⟩
    · obtain ⟨hfirst, hrest⟩ := List.forall_mem_cons.mp hnone
      exact (hstores hrest).trans (houter hfirst)

end DContext
