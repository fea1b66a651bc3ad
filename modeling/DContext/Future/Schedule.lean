import DContext.Future.WithContext
import DContext.System.Run

/-!
# Tasks under a schedule

Wrapped futures are polled by threads in any order, each poll on any thread. A poll is three
steps: the first swap, the inner poll, the second swap. The steps of polls on different threads
interleave, and code outside the polls writes the cell of an idle thread. While a task is polled
its store is in the cell of its thread and nowhere else, and the content of that cell is kept by
the poll; so each task runs as it would alone, and each thread gets its content back.

## Main definitions

* `Machine T I F O U`, `step`: the threads and the tasks, and the events of a schedule
* `alone`: a task polled on one thread, with nothing in between
* `Isolated`: the invariant

## Main results

* `step_isolated`: every event keeps the invariant
* `length_log_poll`: a completed poll adds one to the log of its task
* `tasks_isolated`: task isolation under every schedule
-/

namespace DContext

open StepSystem

variable {U : TypeUniverse}

namespace Schedule

/-- An inner poll that returns normally. -/
abbrev ReturningPoll (F O : Type) (U : TypeUniverse) := F → Cell U → Poll O × F × Cell U

/-- An inner poll that returns normally, as a poll. -/
def returning {F O : Type} (innerPoll : ReturningPoll F O U) : PollFn F O U := fun fut cell =>
  let r := innerPoll fut cell
  (.returned r.1, r.2)

/-- A wrapper around a future whose poll returns: its poll returns too, with the cell as it was. So
the inner future of a task may itself be a wrapped future, to any depth. -/
def wrapped {F O : Type} (innerPoll : ReturningPoll F O U) : ReturningPoll (WithContext F U) O U :=
  fun w cell =>
    let r := innerPoll w.inner w.store
    (r.1, ⟨r.2.1, r.2.2⟩, cell)

theorem poll_returning {F O : Type} (innerPoll : ReturningPoll F O U) :
    WithContext.poll (returning innerPoll) = returning (wrapped innerPoll) := rfl

/-- What a thread does: nothing, or a poll of a task, before or after the inner poll. The poll
holds the content that the first swap found in the cell. -/
inductive Activity (I : Type) (U : TypeUniverse)
  | idle
  | entered (i : I) (prev : Cell U)
  | polled (i : I) (prev : Cell U)

/-- The task that is being polled, and the content held by the poll. -/
def Activity.current {I : Type} : Activity I U → Option (I × Cell U)
  | .idle => none
  | .entered i prev => some (i, prev)
  | .polled i prev => some (i, prev)

/-- The threads and the tasks. -/
structure Machine (T I : Type) (F O : I → Type) (U : TypeUniverse) where
  cell : T → Cell U
  activity : T → Activity I U
  task : (i : I) → WithContext (Observed (F i) (O i) U) U
  /-- The thread that polls the task: a poll borrows its task exclusively. -/
  poller : I → Option T
  /-- What the code outside the polls last left in the cell. -/
  ambient : T → Cell U

/-- One step of a poll, or a write to the cell by code outside the polls. -/
inductive Event (T I : Type) (U : TypeUniverse)
  | enter (t : T) (i : I)
  | inner (t : T)
  | leave (t : T)
  | outside (t : T) (content : Cell U)

variable {T I : Type} [DecidableEq T] [DecidableEq I] {F O : I → Type}

/-- An event that the threads cannot make happens nowhere and changes nothing. -/
def step (innerPoll : (i : I) → ReturningPoll (F i) (O i) U) (m : Machine T I F O U) :
    Event T I U → Machine T I F O U × Unit
  | .enter t i =>
    -- the thread is between polls, and no other thread borrows the task
    match m.activity t, m.poller i with
    | .idle, none =>
      let r := (m.task i).swapIn (m.cell t)
      ({ m with
          task := Function.update m.task i r.1
          cell := Function.update m.cell t r.2.1
          activity := Function.update m.activity t (.entered i r.2.2)
          poller := Function.update m.poller i (some t) }, ())
    | _, _ => (m, ())
  | .inner t =>
    match m.activity t with
    | .entered i prev =>
      let r := observe (returning (innerPoll i)) (m.task i).inner (m.cell t)
      ({ m with
          task := Function.update m.task i { m.task i with inner := r.2.1 }
          cell := Function.update m.cell t r.2.2
          activity := Function.update m.activity t (.polled i prev) }, ())
    | _ => (m, ())
  | .leave t =>
    match m.activity t with
    | .polled i prev =>
      let r := (m.task i).swapOut (m.cell t) prev
      ({ m with
          task := Function.update m.task i r.1
          cell := Function.update m.cell t r.2
          activity := Function.update m.activity t .idle
          poller := Function.update m.poller i none }, ())
    | _ => (m, ())
  | .outside t content =>
    match m.activity t with
    | .idle =>
      ({ m with
          cell := Function.update m.cell t content
          ambient := Function.update m.ambient t content }, ())
    | _ => (m, ())

/-- Idle threads with these cells, and tasks that have not been polled. -/
def start (tasks : (i : I) → WithContext (F i) U) (cells : T → Cell U) : Machine T I F O U where
  cell := cells
  activity := fun _ => .idle
  task := fun i => ⟨⟨(tasks i).inner, []⟩, (tasks i).store⟩
  poller := fun _ => none
  ambient := cells

/-- The machine after a schedule. -/
def after (innerPoll : (i : I) → ReturningPoll (F i) (O i) U)
    (tasks : (i : I) → WithContext (F i) U) (cells : T → Cell U)
    (schedule : List (Event T I U)) : Machine T I F O U :=
  (run (step innerPoll) (start tasks cells) schedule).1

/-! ## A task alone -/

section Alone

variable {F O : Type}

/-- A task polled `n` times on one thread, whose cell has this content at first: the task and the
cell then. -/
def alone (innerPoll : ReturningPoll F O U) (w : WithContext F U) (cell : Cell U) :
    Nat → WithContext (Observed F O U) U × Cell U
  | 0 => (⟨⟨w.inner, []⟩, w.store⟩, cell)
  | n + 1 =>
    let r := alone innerPoll w cell n
    (r.1.poll (observe (returning innerPoll)) r.2).2

theorem alone_succ (innerPoll : ReturningPoll F O U) (w : WithContext F U) (cell : Cell U)
    (n : Nat) :
    let r := (alone innerPoll w cell n).1
    let p := observe (returning innerPoll) r.inner r.store
    (alone innerPoll w cell (n + 1)).1 = ⟨p.2.1, p.2.2⟩ :=
  rfl

theorem length_log_alone (innerPoll : ReturningPoll F O U) (w : WithContext F U) (cell : Cell U)
    (n : Nat) : (alone innerPoll w cell n).1.inner.log.length = n := by
  induction n with
  | zero => rfl
  | succ n ih =>
    rw [alone_succ]
    show ((alone innerPoll w cell n).1.inner.log ++ [_]).length = n + 1
    rw [List.length_append, ih, List.length_singleton]

end Alone

/-! ## The invariant -/

section Isolation

variable (innerPoll : (i : I) → ReturningPoll (F i) (O i) U) (tasks : (i : I) → WithContext (F i) U)
  (home : Cell U)

/-- The task is where some number of polls alone take it. -/
def AsAlone (i : I) (w : WithContext (Observed (F i) (O i) U) U) : Prop :=
  ∃ n, (alone (innerPoll i) (tasks i) home n).1 = w

/-- **Isolation**: an idle thread has its own content; a polling thread holds it, and has in its
cell the store of the task it polls; every other task holds its store itself. -/
structure Isolated (m : Machine T I F O U) : Prop where
  idle : ∀ t, m.activity t = .idle → m.cell t = m.ambient t
  current : ∀ t i prev, (m.activity t).current = some (i, prev) →
    prev = m.ambient t ∧ m.poller i = some t ∧
      AsAlone innerPoll tasks home i ⟨(m.task i).inner, m.cell t⟩
  suspended : ∀ i, m.poller i = none → AsAlone innerPoll tasks home i (m.task i)
  busy : ∀ i t, m.poller i = some t → ∃ prev, (m.activity t).current = some (i, prev)

omit [DecidableEq T] [DecidableEq I] in
theorem start_isolated (cells : T → Cell U) :
    Isolated innerPoll tasks home (start tasks cells) where
  idle _ _ := rfl
  current _ _ _ h := by cases h
  suspended _ _ := ⟨0, rfl⟩
  busy _ _ h := by cases h

/-- What the invariant says of one thread and of one task, the only task the thread may poll. -/
structure IsolatedAt (m : Machine T I F O U) (t : T) (i : I) : Prop where
  idle : m.activity t = .idle → m.cell t = m.ambient t
  current : ∀ j prev, (m.activity t).current = some (j, prev) →
    j = i ∧ prev = m.ambient t ∧ m.poller i = some t ∧
      AsAlone innerPoll tasks home i ⟨(m.task i).inner, m.cell t⟩
  suspended : m.poller i = none → AsAlone innerPoll tasks home i (m.task i)
  busy : ∀ t', m.poller i = some t' → t' = t ∧ ∃ prev, (m.activity t).current = some (i, prev)

variable {innerPoll tasks home}

omit [DecidableEq T] [DecidableEq I] in
/-- A step of one thread with one task, neither engaged elsewhere, has to be checked on these two
alone. -/
theorem Isolated.frame {m m' : Machine T I F O U} (h : Isolated innerPoll tasks home m) {t : T}
    {i : I} (htask : ∀ t', m.poller i = some t' → t' = t)
    (hthread : ∀ j, m.poller j = some t → j = i)
    (hcell : ∀ t', t' ≠ t → m'.cell t' = m.cell t')
    (hactivity : ∀ t', t' ≠ t → m'.activity t' = m.activity t')
    (htasks : ∀ j, j ≠ i → m'.task j = m.task j) (hpoller : ∀ j, j ≠ i → m'.poller j = m.poller j)
    (hambient : m'.ambient = m.ambient) (hat : IsolatedAt innerPoll tasks home m' t i) :
    Isolated innerPoll tasks home m' := by
  refine ⟨?_, ?_, ?_, ?_⟩
  -- each clause is `hat` at the two concerned and `h` elsewhere
  · intro t' hidle
    by_cases ht : t' = t
    · subst ht
      exact hat.idle hidle
    · rw [hactivity t' ht] at hidle
      rw [hcell t' ht, hambient]
      exact h.idle t' hidle
  · intro t' j prev hcurrent
    by_cases ht : t' = t
    · subst ht
      obtain ⟨rfl, hrest⟩ := hat.current j prev hcurrent
      exact hrest
    · rw [hactivity t' ht] at hcurrent
      obtain ⟨hprev, hpoll, halone⟩ := h.current t' j prev hcurrent
      have hj : j ≠ i := by
        rintro rfl
        exact ht (htask t' hpoll)
      rw [hambient, hpoller j hj, htasks j hj, hcell t' ht]
      exact ⟨hprev, hpoll, halone⟩
  · intro j hnone
    by_cases hj : j = i
    · subst hj
      exact hat.suspended hnone
    · rw [hpoller j hj] at hnone
      rw [htasks j hj]
      exact h.suspended j hnone
  · intro j t' hsome
    by_cases hj : j = i
    · subst hj
      obtain ⟨rfl, hcurrent⟩ := hat.busy t' hsome
      exact hcurrent
    · rw [hpoller j hj] at hsome
      have ht : t' ≠ t := by
        rintro rfl
        exact hj (hthread j hsome)
      rw [hactivity t' ht]
      exact h.busy j t' hsome

/-- The first swap moves the store of the task into the cell and the content of the cell into the
poll. -/
theorem Isolated.enter {m : Machine T I F O U} (h : Isolated innerPoll tasks home m) (t : T) (i : I)
    (ht : m.activity t = .idle) (hi : m.poller i = none) :
    Isolated innerPoll tasks home (step innerPoll m (.enter t i)).1 := by
  have hstep : (step innerPoll m (.enter t i)).1 =
      { m with
        task := Function.update m.task i { m.task i with store := none }
        cell := Function.update m.cell t (m.task i).store
        activity := Function.update m.activity t (.entered i (m.cell t))
        poller := Function.update m.poller i (some t) } := by
    simp only [step, ht, hi, WithContext.swapIn]
  rw [hstep]
  refine h.frame (t := t) (i := i) ?_ ?_ (fun t' hne => Function.update_of_ne hne _ _)
    (fun t' hne => Function.update_of_ne hne _ _) (fun j hne => Function.update_of_ne hne _ _)
    (fun j hne => Function.update_of_ne hne _ _) rfl ?_
  · intro t' hsome
    rw [hi] at hsome
    cases hsome
  · intro j hsome
    obtain ⟨prev, hcurrent⟩ := h.busy j t hsome
    rw [ht] at hcurrent
    cases hcurrent
  · refine ⟨?_, ?_, ?_, ?_⟩
    · intro hidle
      simp only [Function.update_self] at hidle
      cases hidle
    · intro j prev hcurrent
      simp only [Function.update_self] at hcurrent ⊢
      obtain ⟨rfl, rfl⟩ := Prod.mk.inj (Option.some.inj hcurrent)
      exact ⟨rfl, h.idle t ht, trivial, h.suspended i hi⟩
    · intro hnone
      simp only [Function.update_self] at hnone
      cases hnone
    · intro t' hsome
      simp only [Function.update_self, Option.some.injEq] at hsome ⊢
      exact ⟨hsome.symm, m.cell t, rfl⟩

omit [DecidableEq T] [DecidableEq I] in
/-- A thread that polls a task is the only one that does, and polls no other. -/
theorem Isolated.engaged {m : Machine T I F O U} (h : Isolated innerPoll tasks home m) {t : T}
    {i : I} {prev : Cell U} (hcurrent : (m.activity t).current = some (i, prev)) :
    (∀ t', m.poller i = some t' → t' = t) ∧ ∀ j, m.poller j = some t → j = i := by
  obtain ⟨-, hpoller, -⟩ := h.current t i prev hcurrent
  constructor
  · intro t' hsome
    exact Option.some.inj (hsome.symm.trans hpoller)
  · intro j hsome
    obtain ⟨prev', hcurrent'⟩ := h.busy j t hsome
    exact (Prod.mk.inj (Option.some.inj (hcurrent'.symm.trans hcurrent))).1

/-- The inner poll acts on its task and on the cell of its thread as it does alone. -/
theorem Isolated.inner {m : Machine T I F O U} (h : Isolated innerPoll tasks home m) (t : T) {i : I}
    {prev : Cell U} (ht : m.activity t = .entered i prev) :
    Isolated innerPoll tasks home (step innerPoll m (.inner t)).1 := by
  have hcurrent : (m.activity t).current = some (i, prev) := by
    rw [ht]
    rfl
  obtain ⟨hprev, hpoller, n, halone⟩ := h.current t i prev hcurrent
  obtain ⟨htask, hthread⟩ := h.engaged hcurrent
  have hstep : (step innerPoll m (.inner t)).1 =
      { m with
        task := Function.update m.task i { m.task i with
          inner := (observe (returning (innerPoll i)) (m.task i).inner (m.cell t)).2.1 }
        cell := Function.update m.cell t
          (observe (returning (innerPoll i)) (m.task i).inner (m.cell t)).2.2
        activity := Function.update m.activity t (.polled i prev) } := by
    simp only [step, ht]
  rw [hstep]
  refine h.frame htask hthread (fun t' hne => Function.update_of_ne hne _ _)
    (fun t' hne => Function.update_of_ne hne _ _) (fun j hne => Function.update_of_ne hne _ _)
    (fun j _ => rfl) rfl ?_
  refine ⟨?_, ?_, ?_, ?_⟩
  · intro hidle
    simp only [Function.update_self] at hidle
    cases hidle
  · intro j prev' hcurrent'
    simp only [Function.update_self] at hcurrent' ⊢
    obtain ⟨rfl, rfl⟩ := Prod.mk.inj (Option.some.inj hcurrent')
    refine ⟨rfl, hprev, hpoller, n + 1, ?_⟩
    rw [alone_succ, halone]
  · intro hnone
    rw [hpoller] at hnone
    cases hnone
  · intro t' hsome
    simp only [Function.update_self]
    exact ⟨htask t' hsome, prev, rfl⟩

/-- The second swap gives the thread its content back and the task its store. -/
theorem Isolated.leave {m : Machine T I F O U} (h : Isolated innerPoll tasks home m) (t : T) {i : I}
    {prev : Cell U} (ht : m.activity t = .polled i prev) :
    Isolated innerPoll tasks home (step innerPoll m (.leave t)).1 := by
  have hcurrent : (m.activity t).current = some (i, prev) := by
    rw [ht]
    rfl
  obtain ⟨hprev, -, halone⟩ := h.current t i prev hcurrent
  obtain ⟨htask, hthread⟩ := h.engaged hcurrent
  have hstep : (step innerPoll m (.leave t)).1 =
      { m with
        task := Function.update m.task i { m.task i with store := m.cell t }
        cell := Function.update m.cell t prev
        activity := Function.update m.activity t .idle
        poller := Function.update m.poller i none } := by
    simp only [step, ht, WithContext.swapOut]
  rw [hstep]
  refine h.frame htask hthread (fun t' hne => Function.update_of_ne hne _ _)
    (fun t' hne => Function.update_of_ne hne _ _) (fun j hne => Function.update_of_ne hne _ _)
    (fun j hne => Function.update_of_ne hne _ _) rfl ?_
  refine ⟨?_, ?_, ?_, ?_⟩
  · intro _
    simp only [Function.update_self]
    exact hprev
  · intro j prev' hcurrent'
    simp only [Function.update_self] at hcurrent'
    cases hcurrent'
  · intro _
    simp only [Function.update_self]
    exact halone
  · intro t' hsome
    simp only [Function.update_self] at hsome
    cases hsome

/-- Code outside the polls only reaches the cell of an idle thread. -/
theorem Isolated.outside {m : Machine T I F O U} (h : Isolated innerPoll tasks home m) (t : T)
    (content : Cell U) (ht : m.activity t = .idle) :
    Isolated innerPoll tasks home (step innerPoll m (.outside t content)).1 := by
  have hstep : (step innerPoll m (.outside t content)).1 =
      { m with
        cell := Function.update m.cell t content
        ambient := Function.update m.ambient t content } := by
    simp only [step, ht]
  rw [hstep]
  refine ⟨?_, ?_, h.suspended, h.busy⟩
  · intro t' ht'
    dsimp only
    rcases eq_or_ne t' t with rfl | hne
    · rw [Function.update_self, Function.update_self]
    · rw [Function.update_of_ne hne, Function.update_of_ne hne]
      exact h.idle t' ht'
  · intro t' i' prev hcur
    dsimp only at hcur ⊢
    have hne : t' ≠ t := by
      rintro rfl
      rw [ht] at hcur
      cases hcur
    rw [Function.update_of_ne hne, Function.update_of_ne hne]
    exact h.current t' i' prev hcur

/-- **Every event keeps the invariant.** -/
theorem step_isolated (m : Machine T I F O U) (event : Event T I U)
    (h : Isolated innerPoll tasks home m) :
    Isolated innerPoll tasks home (step innerPoll m event).1 := by
  cases event with
  | enter t i =>
    cases ht : m.activity t with
    | idle =>
      cases hi : m.poller i with
      | none => exact h.enter t i ht hi
      | some t' => simpa only [step, ht, hi] using h
    | entered i' prev => simpa only [step, ht] using h
    | polled i' prev => simpa only [step, ht] using h
  | inner t =>
    cases ht : m.activity t with
    | idle => simpa only [step, ht] using h
    | entered i prev => exact h.inner t ht
    | polled i prev => simpa only [step, ht] using h
  | leave t =>
    cases ht : m.activity t with
    | idle => simpa only [step, ht] using h
    | entered i prev => simpa only [step, ht] using h
    | polled i prev => exact h.leave t ht
  | outside t content =>
    cases ht : m.activity t with
    | idle => exact h.outside t content ht
    | entered i prev => simpa only [step, ht] using h
    | polled i prev => simpa only [step, ht] using h

/-- Polls change nothing of what the code outside them left in a cell. -/
theorem ambient_of_not_outside (t : T) (schedule : List (Event T I U)) :
    ∀ m : Machine T I F O U, (∀ content, Event.outside t content ∉ schedule) →
      (run (step innerPoll) m schedule).1.ambient t = m.ambient t := by
  induction schedule with
  | nil => exact fun _ _ => rfl
  | cons event schedule ih =>
    intro m hnone
    have hrest : ∀ content, Event.outside t content ∉ schedule := fun content hmem =>
      hnone content (List.mem_cons_of_mem event hmem)
    rw [run_cons, ih _ hrest]
    cases event with
    | enter t' i => simp only [step]; split <;> rfl
    | inner t' => simp only [step]; split <;> rfl
    | leave t' => simp only [step]; split <;> rfl
    | outside t' content =>
      have hne : t ≠ t' := by
        rintro rfl
        exact hnone content List.mem_cons_self
      simp only [step]
      split
      · exact Function.update_of_ne hne _ _
      · rfl

/-! ## Polls and logs -/

/-- The thread of an event. -/
def Event.thread : Event T I U → T
  | .enter t _ => t
  | .inner t => t
  | .leave t => t
  | .outside t _ => t

/-- While a thread polls a task, the others reach neither. -/
theorem step_other {m : Machine T I F O U} (h : Isolated innerPoll tasks home m) {t : T} {i : I}
    (hpoller : m.poller i = some t) (e : Event T I U) (he : e.thread ≠ t) :
    (step innerPoll m e).1.activity t = m.activity t ∧
      (step innerPoll m e).1.poller i = some t ∧ (step innerPoll m e).1.task i = m.task i := by
  have hother : ∀ {t' : T} {j : I} {prev : Cell U}, t' ≠ t →
      (m.activity t').current = some (j, prev) → i ≠ j := by
    rintro t' j prev hne hcurrent rfl
    have hpolls := (h.current t' i prev hcurrent).2.1
    rw [hpoller] at hpolls
    exact hne (Option.some.inj hpolls).symm
  cases e with
  | enter t' j =>
    have hne : t ≠ t' := Ne.symm he
    simp only [step]
    split
    · next hidle hfree =>
      have hij : i ≠ j := by
        rintro rfl
        rw [hpoller] at hfree
        cases hfree
      exact ⟨Function.update_of_ne hne _ _, (Function.update_of_ne hij _ _).trans hpoller,
        Function.update_of_ne hij _ _⟩
    · exact ⟨rfl, hpoller, rfl⟩
  | inner t' =>
    have hne : t ≠ t' := Ne.symm he
    simp only [step]
    split
    · next j prev hactivity =>
      have hij := hother (Ne.symm hne) (congrArg Activity.current hactivity)
      exact ⟨Function.update_of_ne hne _ _, hpoller, Function.update_of_ne hij _ _⟩
    · exact ⟨rfl, hpoller, rfl⟩
  | leave t' =>
    have hne : t ≠ t' := Ne.symm he
    simp only [step]
    split
    · next j prev hactivity =>
      have hij := hother (Ne.symm hne) (congrArg Activity.current hactivity)
      exact ⟨Function.update_of_ne hne _ _, (Function.update_of_ne hij _ _).trans hpoller,
        Function.update_of_ne hij _ _⟩
    · exact ⟨rfl, hpoller, rfl⟩
  | outside t' content =>
    simp only [step]
    split <;> exact ⟨rfl, hpoller, rfl⟩

theorem run_other {m : Machine T I F O U} (h : Isolated innerPoll tasks home m) {t : T} {i : I}
    (hpoller : m.poller i = some t) (events : List (Event T I U))
    (hevents : ∀ e ∈ events, e.thread ≠ t) :
    let m' := (run (step innerPoll) m events).1
    Isolated innerPoll tasks home m' ∧ m'.activity t = m.activity t ∧ m'.poller i = some t ∧
      m'.task i = m.task i := by
  induction events generalizing m with
  | nil => exact ⟨h, rfl, hpoller, rfl⟩
  | cons e events ih =>
    obtain ⟨he, hrest⟩ := List.forall_mem_cons.mp hevents
    obtain ⟨hactivity, hpoller', htask⟩ := step_other h hpoller e he
    obtain ⟨h', hactivity', hkept, htask'⟩ := ih (step_isolated m e h) hpoller' hrest
    exact ⟨h', hactivity'.trans hactivity, hkept, htask'.trans htask⟩

/-- **A poll adds one to the log**: an idle thread that polls a task which no other one polls, with
events of other threads at any moment of the poll, has polled its inner future once, and is idle
again. So the length of the log is the number of polls that the schedule has completed. -/
theorem length_log_poll {m : Machine T I F O U} (h : Isolated innerPoll tasks home m) {t : T}
    {i : I} (hidle : m.activity t = .idle) (hfree : m.poller i = none)
    (before after : List (Event T I U)) (hbefore : ∀ e ∈ before, e.thread ≠ t)
    (hafter : ∀ e ∈ after, e.thread ≠ t) :
    let m' := (run (step innerPoll) m
      (.enter t i :: (before ++ .inner t :: (after ++ [.leave t])))).1
    (m'.task i).inner.log.length = (m.task i).inner.log.length + 1 ∧ m'.activity t = .idle ∧
      m'.poller i = none := by
  intro m'
  let entered := (step innerPoll m (.enter t i)).1
  have hentered : entered.activity t = .entered i (m.cell t) ∧ entered.poller i = some t ∧
      (entered.task i).inner = (m.task i).inner := by
    simp [entered, step, hidle, hfree, WithContext.swapIn]
  obtain ⟨h₁, hactivity₁, hpoller₁, htask₁⟩ :=
    run_other (h.enter t i hidle hfree) hentered.2.1 before hbefore
  let waited := (run (step innerPoll) entered before).1
  have hwaited : waited.activity t = .entered i (m.cell t) := hactivity₁.trans hentered.1
  let polled := (step innerPoll waited (.inner t)).1
  have hpolled : polled.activity t = .polled i (m.cell t) ∧ polled.poller i = some t ∧
      (polled.task i).inner.log.length = (waited.task i).inner.log.length + 1 := by
    have hheld : waited.poller i = some t := hpoller₁
    simp [polled, step, hwaited, observe, returning, hheld]
  obtain ⟨-, hactivity₂, hpoller₂, htask₂⟩ :=
    run_other (step_isolated waited (.inner t) h₁) hpolled.2.1 after hafter
  let last := (run (step innerPoll) polled after).1
  have hlast : last.activity t = .polled i (m.cell t) := hactivity₂.trans hpolled.1
  have hend : m' = (step innerPoll last (.leave t)).1 := by
    show (run (step innerPoll) entered (before ++ .inner t :: (after ++ [.leave t]))).1 = _
    rw [run_append, run_cons, run_append]
    rfl
  have hleft : (m'.task i).inner = (last.task i).inner ∧ m'.activity t = .idle ∧
      m'.poller i = none := by
    rw [hend]
    simp [step, hlast, WithContext.swapOut]
  have hlog : (last.task i).inner.log.length = (m.task i).inner.log.length + 1 := by
    rw [show last.task i = polled.task i from htask₂, hpolled.2.2,
      show waited.task i = entered.task i from htask₁, hentered.2.2]
  exact ⟨hleft.1 ▸ hlog, hleft.2⟩

end Isolation

/-- **Task isolation under every schedule.** Between two moments at which a thread is idle, with no
write to its cell by code outside the polls, polls leave that cell as it was. And every task has
seen the stores and given the results that it does when it is polled alone, and holds the store
that it then does whenever it is not being polled. -/
theorem tasks_isolated (innerPoll : (i : I) → ReturningPoll (F i) (O i) U)
    (tasks : (i : I) → WithContext (F i) U) (cells : T → Cell U) (home : Cell U)
    (schedule later : List (Event T I U)) :
    (∀ t, (after innerPoll tasks cells schedule).activity t = .idle →
        (after innerPoll tasks cells (schedule ++ later)).activity t = .idle →
        (∀ content, Event.outside t content ∉ later) →
        (after innerPoll tasks cells (schedule ++ later)).cell t =
          (after innerPoll tasks cells schedule).cell t) ∧
      ∀ i,
        let task := (after innerPoll tasks cells schedule).task i
        let single := (alone (innerPoll i) (tasks i) home task.inner.log.length).1
        task.inner = single.inner ∧
          ((after innerPoll tasks cells schedule).poller i = none → task.store = single.store) := by
  have hinv : ∀ events, Isolated innerPoll tasks home (after innerPoll tasks cells events) :=
    fun events => run_invariant step_isolated events _ (start_isolated innerPoll tasks home cells)
  refine ⟨?_, ?_⟩
  · intro t hbefore hafter hnone
    rw [(hinv (schedule ++ later)).idle t hafter, (hinv schedule).idle t hbefore, after, run_append]
    exact ambient_of_not_outside t later _ hnone
  · -- the log tells how many polls there have been
    intro i
    have hlog : ∀ {w : WithContext (Observed (F i) (O i) U) U},
        AsAlone innerPoll tasks home i w →
          (alone (innerPoll i) (tasks i) home w.inner.log.length).1 = w := by
      rintro w ⟨n, rfl⟩
      rw [length_log_alone]
    cases hpoller : (after innerPoll tasks cells schedule).poller i with
    | none =>
      have halone := hlog ((hinv schedule).suspended i hpoller)
      dsimp only
      rw [halone]
      exact ⟨rfl, fun _ => rfl⟩
    | some t =>
      obtain ⟨prev, hcur⟩ := (hinv schedule).busy i t hpoller
      obtain ⟨-, -, hrun⟩ := (hinv schedule).current t i prev hcur
      have halone := hlog hrun
      dsimp only at halone ⊢
      rw [halone]
      exact ⟨rfl, fun h => by cases h⟩

end Schedule

end DContext
