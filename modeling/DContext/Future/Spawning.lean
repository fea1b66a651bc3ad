import DContext.Future.Schedule

/-!
# Tasks that spawn tasks

A poll may spawn further tasks, with stores it has forked or captured from what it then finds in
the cell. A task is named by where it comes from: the thread that started it, or its parent and its
place among the children of the parent. What a task spawns is a matter of its own polls, so under
every schedule the same tasks come to be, and each runs as it would alone.

## Main definitions

* `TaskId R`: where a task comes from
* `SpawningPoll F O U`: an inner poll that returns normally, and may spawn tasks
* `Pool T R F O U`, `Pool.step`: the threads and the tasks there are
* `origin innerPoll roots i`: the task as it is spawned, said without a schedule

## Main results

* `nthChild_eq`: the children of a task are those of its polls alone
* `Mirrors.step`: a pool goes along with a machine that has all tasks from the start
* `spawned_isolated`: every task of every schedule is the one of its name, and runs as alone
* `spawn_confluent`: two schedules that poll a task as often agree on it
-/

namespace DContext

open StepSystem

variable {U : TypeUniverse}

namespace Schedule

/-- Where a task comes from. -/
inductive TaskId (R : Type)
  | root (r : R)
  | child (parent : TaskId R) (k : Nat)
  deriving DecidableEq

/-- An inner poll that returns normally, with the tasks it spawns. -/
abbrev SpawningPoll (F O : Type) (U : TypeUniverse) :=
  F → Cell U → (Poll O × F × Cell U) × List (WithContext F U)

/-- The poll without the tasks it spawns. -/
def quiet {F O : Type} (innerPoll : SpawningPoll F O U) : ReturningPoll F O U := fun fut cell =>
  (innerPoll fut cell).1

/-- A task that has not been polled. -/
def fresh {F O : Type} (w : WithContext F U) : WithContext (Observed F O U) U :=
  ⟨⟨w.inner, []⟩, w.store⟩

/-! ## What a task spawns -/

section Children

variable {F O : Type} (innerPoll : SpawningPoll F O U) (w : WithContext F U)

/-- What a task spawns in the poll after `n` polls alone. -/
def childrenAt (n : Nat) : List (WithContext F U) :=
  let r := (alone (quiet innerPoll) w none n).1
  (innerPoll r.inner.future r.store).2

/-- What a task spawns in its first `n` polls. -/
def spawnedBy : Nat → List (WithContext F U)
  | 0 => []
  | n + 1 => spawnedBy n ++ childrenAt innerPoll w n

theorem spawnedBy_prefix {n n' : Nat} (h : n ≤ n') :
    spawnedBy innerPoll w n <+: spawnedBy innerPoll w n' := by
  induction h with
  | refl => exact List.prefix_refl _
  | step _ ih => exact ih.trans (List.prefix_append _ _)

open Classical in
/-- The task that is spawned as number `k`, in whichever poll. -/
noncomputable def nthChild (k : Nat) : Option (WithContext F U) :=
  if h : ∃ n, k < (spawnedBy innerPoll w n).length then (spawnedBy innerPoll w h.choose)[k]?
  else none

/-- **The children of a task** are those of its polls alone, however many there have been. -/
theorem nthChild_eq {n k : Nat} (h : k < (spawnedBy innerPoll w n).length) :
    nthChild innerPoll w k = (spawnedBy innerPoll w n)[k]? := by
  have hex : ∃ n, k < (spawnedBy innerPoll w n).length := ⟨n, h⟩
  rw [nthChild, dif_pos hex]
  rcases Nat.le_total n hex.choose with hle | hle
  · obtain ⟨more, hmore⟩ := spawnedBy_prefix innerPoll w hle
    rw [← hmore, List.getElem?_append_left h]
  · obtain ⟨more, hmore⟩ := spawnedBy_prefix innerPoll w hle
    rw [← hmore, List.getElem?_append_left hex.choose_spec]

end Children

/-- The task of a name as it is spawned; a name that is never given stands for its parent. -/
noncomputable def origin {R F O : Type} (innerPoll : SpawningPoll F O U)
    (roots : R → WithContext F U) : TaskId R → WithContext F U
  | .root r => roots r
  | .child parent k =>
    (nthChild innerPoll (origin innerPoll roots parent) k).getD (origin innerPoll roots parent)

/-! ## The pool -/

/-- The threads, and the tasks there are by now; `spawned` is how many children a task has. -/
structure Pool (T R F O : Type) (U : TypeUniverse) where
  cell : T → Cell U
  activity : T → Activity (TaskId R) U
  task : TaskId R → Option (WithContext (Observed F O U) U)
  spawned : TaskId R → Nat
  poller : TaskId R → Option T
  ambient : T → Cell U

namespace Pool

variable {T R F O : Type} [DecidableEq T] [DecidableEq R]

/-- The tasks after the task `i` has spawned these children. -/
def withChildren (p : Pool T R F O U) (i : TaskId R) (children : List (WithContext F U)) :
    TaskId R → Option (WithContext (Observed F O U) U)
  | .root r => p.task (.root r)
  | .child parent k =>
    if parent = i ∧ p.spawned i ≤ k then (children[k - p.spawned i]?).map fresh
    else p.task (.child parent k)

/-- The steps of the machine, for the tasks there are. -/
def step (innerPoll : SpawningPoll F O U) (p : Pool T R F O U) :
    Event T (TaskId R) U → Pool T R F O U × Unit
  | .enter t i =>
    match p.activity t, p.poller i, p.task i with
    | .idle, none, some w =>
      let r := w.swapIn (p.cell t)
      ({ p with
          task := Function.update p.task i (some r.1)
          cell := Function.update p.cell t r.2.1
          activity := Function.update p.activity t (.entered i r.2.2)
          poller := Function.update p.poller i (some t) }, ())
    | _, _, _ => (p, ())
  | .inner t =>
    match p.activity t with
    | .entered i prev =>
      match p.task i with
      | some w =>
        let r := observe (returning (quiet innerPoll)) w.inner (p.cell t)
        let children := (innerPoll w.inner.future (p.cell t)).2
        ({ p with
            task := Function.update (p.withChildren i children) i (some { w with inner := r.2.1 })
            spawned := Function.update p.spawned i (p.spawned i + children.length)
            cell := Function.update p.cell t r.2.2
            activity := Function.update p.activity t (.polled i prev) }, ())
      | none => (p, ())
    | _ => (p, ())
  | .leave t =>
    match p.activity t with
    | .polled i prev =>
      match p.task i with
      | some w =>
        let r := w.swapOut (p.cell t) prev
        ({ p with
            task := Function.update p.task i (some r.1)
            cell := Function.update p.cell t r.2
            activity := Function.update p.activity t .idle
            poller := Function.update p.poller i none }, ())
      | none => (p, ())
    | _ => (p, ())
  | .outside t content =>
    match p.activity t with
    | .idle =>
      ({ p with
          cell := Function.update p.cell t content
          ambient := Function.update p.ambient t content }, ())
    | _ => (p, ())

/-- Idle threads with these cells, and the tasks that are started from outside. -/
def start (roots : R → WithContext F U) (cells : T → Cell U) : Pool T R F O U where
  cell := cells
  activity := fun _ => .idle
  task
    | .root r => some (fresh (roots r))
    | .child _ _ => none
  spawned := fun _ => 0
  poller := fun _ => none
  ambient := cells

/-- The pool after a schedule. -/
def after (innerPoll : SpawningPoll F O U) (roots : R → WithContext F U) (cells : T → Cell U)
    (schedule : List (Event T (TaskId R) U)) : Pool T R F O U :=
  (run (step innerPoll) (start roots cells) schedule).1

end Pool

/-! ## All tasks from the start -/

section Mirrors

variable {T R F O : Type} (innerPoll : SpawningPoll F O U) (roots : R → WithContext F U)

/-- The pool goes along with a machine that has had all tasks from the start: the tasks that there
are yet are those of the machine, and the others have not been polled there. -/
structure Mirrors (p : Pool T R F O U) (m : Machine T (TaskId R) (fun _ => F) (fun _ => O) U) :
    Prop where
  cell : p.cell = m.cell
  activity : p.activity = m.activity
  poller : p.poller = m.poller
  ambient : p.ambient = m.ambient
  known : ∀ i w, p.task i = some w → m.task i = w
  unknown : ∀ i, p.task i = none →
    m.task i = fresh (origin innerPoll roots i) ∧ m.poller i = none ∧ p.spawned i = 0
  spawned : ∀ i w, p.task i = some w →
    p.spawned i = (spawnedBy innerPoll (origin innerPoll roots i) w.inner.log.length).length
  root : ∀ r, (p.task (.root r)).isSome
  child : ∀ i k, (p.task (.child i k)).isSome ↔ (p.task i).isSome ∧ k < p.spawned i

theorem start_mirrors (cells : T → Cell U) :
    Mirrors innerPoll roots (Pool.start roots cells)
      (Schedule.start (fun i => origin innerPoll roots i) cells) where
  cell := rfl
  activity := rfl
  poller := rfl
  ambient := rfl
  known i w h := by
    cases i with
    | root r => exact Option.some.inj h
    | child parent k => cases h
  unknown _ _ := ⟨rfl, rfl, rfl⟩
  spawned i w h := by
    cases i with
    | root r =>
      obtain rfl := Option.some.inj h
      rfl
    | child parent k => cases h
  root _ := rfl
  child i k := by simp [Pool.start]

variable {innerPoll roots} [DecidableEq T] [DecidableEq R] {p : Pool T R F O U}
  {m : Machine T (TaskId R) (fun _ => F) (fun _ => O) U}

omit [DecidableEq T] in
/-- Which tasks there are stays the same when one of them changes. -/
theorem isSome_update {task : TaskId R → Option (WithContext (Observed F O U) U)} {i : TaskId R}
    {w : WithContext (Observed F O U) U} (hi : task i = some w)
    (w' : WithContext (Observed F O U) U) (j : TaskId R) :
    (Function.update task i (some w') j).isSome = (task j).isSome := by
  by_cases hj : j = i
  · subst hj
    rw [Function.update_self, hi]
    rfl
  · rw [Function.update_of_ne hj]

omit [DecidableEq T] in
/-- A step that polls no future, of a task there is. -/
theorem Mirrors.update (h : Mirrors innerPoll roots p m) {i : TaskId R}
    {w : WithContext (Observed F O U) U} (hi : p.task i = some w)
    (w' : WithContext (Observed F O U) U)
    (hlog : w'.inner.log.length = w.inner.log.length) {cell : T → Cell U}
    {activity : T → Activity (TaskId R) U} {poller : TaskId R → Option T}
    (hpoller : ∀ j, j ≠ i → poller j = m.poller j) :
    Mirrors innerPoll roots
      { p with
        task := Function.update p.task i (some w')
        cell := cell
        activity := activity
        poller := poller }
      { m with
        task := Function.update m.task i w'
        cell := cell
        activity := activity
        poller := poller } := by
  refine ⟨rfl, rfl, rfl, h.ambient, ?_, ?_, ?_, ?_, ?_⟩
  · intro j v hj
    dsimp only at hj ⊢
    by_cases hji : j = i
    · subst hji
      rw [Function.update_self] at hj ⊢
      exact Option.some.inj hj
    · rw [Function.update_of_ne hji] at hj ⊢
      exact h.known j v hj
  · intro j hj
    dsimp only at hj ⊢
    have hnone : p.task j = none := by
      rw [← Option.not_isSome_iff_eq_none, ← isSome_update hi w' j, hj]
      exact Bool.false_ne_true
    have hji : j ≠ i := by
      rintro rfl
      rw [hi] at hnone
      cases hnone
    rw [Function.update_of_ne hji, hpoller j hji]
    exact h.unknown j hnone
  · intro j v hj
    dsimp only at hj ⊢
    by_cases hji : j = i
    · subst hji
      rw [Function.update_self] at hj
      obtain rfl := Option.some.inj hj
      rw [hlog]
      exact h.spawned j w hi
    · rw [Function.update_of_ne hji] at hj
      exact h.spawned j v hj
  · intro r
    dsimp only
    rw [isSome_update hi]
    exact h.root r
  · intro j k
    dsimp only
    rw [isSome_update hi, isSome_update hi]
    exact h.child j k

/-- The first swap. -/
theorem Mirrors.enter (h : Mirrors innerPoll roots p m) (t : T) (i : TaskId R)
    {w : WithContext (Observed F O U) U} (ht : p.activity t = .idle) (hi : p.poller i = none)
    (hw : p.task i = some w) :
    Mirrors innerPoll roots (p.step innerPoll (.enter t i)).1
      (step (fun _ => quiet innerPoll) m (.enter t i)).1 := by
  have htask := h.known i w hw
  obtain ⟨hcell, hactivity, hpoller⟩ := And.intro h.cell (And.intro h.activity h.poller)
  have hp : (p.step innerPoll (.enter t i)).1 =
      { p with
        task := Function.update p.task i (some { w with store := none })
        cell := Function.update p.cell t w.store
        activity := Function.update p.activity t (.entered i (p.cell t))
        poller := Function.update p.poller i (some t) } := by
    simp only [Pool.step, ht, hi, hw, WithContext.swapIn]
  have hm : (step (fun _ => quiet innerPoll) m (.enter t i)).1 =
      { m with
        task := Function.update m.task i { w with store := none }
        cell := Function.update p.cell t w.store
        activity := Function.update p.activity t (.entered i (p.cell t))
        poller := Function.update p.poller i (some t) } := by
    rw [hactivity] at ht
    rw [hpoller] at hi
    simp only [step, ht, hi, WithContext.swapIn, htask, hcell, hactivity, hpoller]
  rw [hp, hm]
  refine h.update hw { w with store := none } rfl ?_
  intro j hj
  rw [Function.update_of_ne hj, hpoller]

/-- The second swap. -/
theorem Mirrors.leave (h : Mirrors innerPoll roots p m) (t : T) {i : TaskId R} {prev : Cell U}
    {w : WithContext (Observed F O U) U} (ht : p.activity t = .polled i prev)
    (hw : p.task i = some w) :
    Mirrors innerPoll roots (p.step innerPoll (.leave t)).1
      (step (fun _ => quiet innerPoll) m (.leave t)).1 := by
  have htask := h.known i w hw
  obtain ⟨hcell, hactivity, hpoller⟩ := And.intro h.cell (And.intro h.activity h.poller)
  have hp : (p.step innerPoll (.leave t)).1 =
      { p with
        task := Function.update p.task i (some { w with store := p.cell t })
        cell := Function.update p.cell t prev
        activity := Function.update p.activity t .idle
        poller := Function.update p.poller i none } := by
    simp only [Pool.step, ht, hw, WithContext.swapOut]
  have hm : (step (fun _ => quiet innerPoll) m (.leave t)).1 =
      { m with
        task := Function.update m.task i { w with store := p.cell t }
        cell := Function.update p.cell t prev
        activity := Function.update p.activity t .idle
        poller := Function.update p.poller i none } := by
    rw [hactivity] at ht
    simp only [step, ht, WithContext.swapOut, htask, hcell, hactivity, hpoller]
  rw [hp, hm]
  refine h.update hw { w with store := p.cell t } rfl ?_
  intro j hj
  rw [Function.update_of_ne hj, hpoller]

omit [DecidableEq T] [DecidableEq R] in
/-- The task that is being polled has been polled alone as often, up to now. -/
theorem Mirrors.childrenAt_eq (h : Mirrors innerPoll roots p m)
    (hisolated : Isolated (fun _ => quiet innerPoll) (fun i => origin innerPoll roots i) none m)
    {t : T} {i : TaskId R} {prev : Cell U} (ht : p.activity t = .entered i prev) :
    ∃ w, p.task i = some w ∧
      childrenAt innerPoll (origin innerPoll roots i) w.inner.log.length =
        (innerPoll w.inner.future (p.cell t)).2 := by
  have hcurrent : (m.activity t).current = some (i, prev) := by
    rw [← h.activity, ht]
    rfl
  obtain ⟨-, hpoller, n, halone⟩ := hisolated.current t i prev hcurrent
  cases hw : p.task i with
  | none =>
    rw [(h.unknown i hw).2.1] at hpoller
    cases hpoller
  | some w =>
    refine ⟨w, rfl, ?_⟩
    have hlog := length_log_alone (quiet innerPoll) (origin innerPoll roots i) none n
    rw [h.known i w hw, ← h.cell] at halone
    rw [halone] at hlog
    dsimp only at hlog
    rw [hlog, childrenAt, halone]

omit [DecidableEq T] in
/-- A task that there is before a poll is not one of its children. -/
theorem Mirrors.withChildren_known (h : Mirrors innerPoll roots p m) {i j : TaskId R}
    (children : List (WithContext F U)) {v : WithContext (Observed F O U) U}
    (hj : p.task j = some v) : p.withChildren i children j = some v := by
  cases j with
  | root r => exact hj
  | child parent k =>
    rw [Pool.withChildren, if_neg, hj]
    rintro ⟨rfl, hle⟩
    obtain ⟨-, hlt⟩ := (h.child parent k).mp (by rw [hj]; rfl)
    omega

omit [DecidableEq T] in
/-- The children of a poll get the names under which they are said without a schedule. -/
theorem Mirrors.withChildren_new (h : Mirrors innerPoll roots p m) {i j : TaskId R}
    {w v : WithContext (Observed F O U) U} (hw : p.task i = some w)
    (hj : p.task j = none)
    (hv : p.withChildren i
      (childrenAt innerPoll (origin innerPoll roots i) w.inner.log.length) j = some v) :
    v = fresh (origin innerPoll roots j) := by
  cases j with
  | root r =>
    rw [Pool.withChildren, hj] at hv
    cases hv
  | child parent k =>
    rw [Pool.withChildren] at hv
    split_ifs at hv with hchild
    · obtain ⟨rfl, hle⟩ := hchild
      obtain ⟨c, hc, rfl⟩ := Option.map_eq_some_iff.mp hv
      have hspawned := h.spawned parent w hw
      have hplace : (spawnedBy innerPoll (origin innerPoll roots parent)
          (w.inner.log.length + 1))[k]? = some c := by
        rw [spawnedBy, List.getElem?_append_right (by omega), ← hspawned, hc]
      obtain ⟨hlt, -⟩ := List.getElem?_eq_some_iff.mp hplace
      rw [origin, nthChild_eq innerPoll _ hlt, hplace]
      rfl
    · rw [hj] at hv
      cases hv

omit [DecidableEq T] in
theorem Mirrors.isSome_withChildren (h : Mirrors innerPoll roots p m) {i : TaskId R}
    {w : WithContext (Observed F O U) U} (hw : p.task i = some w)
    (children : List (WithContext F U)) (j : TaskId R) (k : Nat) :
    (p.withChildren i children (.child j k)).isSome ↔
      (p.withChildren i children j).isSome ∧
        k < Function.update p.spawned i (p.spawned i + children.length) j := by
  by_cases hj : j = i
  · subst hj
    rw [h.withChildren_known children hw, Function.update_self, Pool.withChildren]
    by_cases hle : p.spawned j ≤ k
    · rw [if_pos ⟨rfl, hle⟩]
      simp
      omega
    · rw [if_neg fun hchild => hle hchild.2, h.child, hw]
      simp
      omega
  · rw [Function.update_of_ne hj, Pool.withChildren, if_neg fun hchild => hj hchild.1, h.child]
    cases hv : p.task j with
    | some v => rw [h.withChildren_known children hv]
    | none => simp [(h.unknown j hv).2.2]

/-- The inner poll, and what it spawns. -/
theorem Mirrors.inner (h : Mirrors innerPoll roots p m)
    (hisolated : Isolated (fun _ => quiet innerPoll) (fun i => origin innerPoll roots i) none m)
    (t : T) {i : TaskId R} {prev : Cell U} (ht : p.activity t = .entered i prev) :
    Mirrors innerPoll roots (p.step innerPoll (.inner t)).1
      (Schedule.step (fun _ => quiet innerPoll) m (.inner t)).1 := by
  obtain ⟨w, hw, hchildren⟩ := h.childrenAt_eq hisolated ht
  have htask := h.known i w hw
  have hspawned := h.spawned i w hw
  obtain ⟨hcell, hactivity, hpoller⟩ := And.intro h.cell (And.intro h.activity h.poller)
  have hp : (p.step innerPoll (.inner t)).1 =
      { p with
        task := Function.update
          (p.withChildren i (innerPoll w.inner.future (p.cell t)).2) i (some { w with
            inner := (observe (returning (quiet innerPoll)) w.inner (p.cell t)).2.1 })
        spawned := Function.update p.spawned i
          (p.spawned i + (innerPoll w.inner.future (p.cell t)).2.length)
        cell := Function.update p.cell t
          (observe (returning (quiet innerPoll)) w.inner (p.cell t)).2.2
        activity := Function.update p.activity t (.polled i prev) } := by
    simp only [Pool.step, ht, hw]
  have hm : (Schedule.step (fun _ => quiet innerPoll) m (.inner t)).1 =
      { m with
        task := Function.update m.task i { w with
          inner := (observe (returning (quiet innerPoll)) w.inner (p.cell t)).2.1 }
        cell := Function.update p.cell t
          (observe (returning (quiet innerPoll)) w.inner (p.cell t)).2.2
        activity := Function.update p.activity t (.polled i prev) } := by
    rw [hactivity] at ht
    simp only [Schedule.step, ht, htask, hcell, hactivity]
  rw [hp, hm, ← hchildren]
  have hknown := fun j v (hj : p.task j = some v) => h.withChildren_known (i := i)
    (childrenAt innerPoll (origin innerPoll roots i) w.inner.log.length) hj
  have hsome := isSome_update (hknown i w hw)
    { w with inner := (observe (returning (quiet innerPoll)) w.inner (p.cell t)).2.1 }
  refine ⟨rfl, rfl, h.poller, h.ambient, ?_, ?_, ?_, ?_, ?_⟩
  · intro j v hj
    dsimp only at hj ⊢
    by_cases hji : j = i
    · subst hji
      rw [Function.update_self] at hj ⊢
      exact Option.some.inj hj
    · rw [Function.update_of_ne hji] at hj ⊢
      cases hold : p.task j with
      | some v' =>
        rw [hknown j v' hold] at hj
        rw [h.known j v' hold, Option.some.inj hj]
      | none => rw [(h.unknown j hold).1, h.withChildren_new hw hold hj]
  · intro j hj
    dsimp only at hj ⊢
    by_cases hji : j = i
    · subst hji
      rw [Function.update_self] at hj
      cases hj
    · rw [Function.update_of_ne hji] at hj
      rw [Function.update_of_ne hji, Function.update_of_ne hji]
      cases hold : p.task j with
      | some v =>
        rw [hknown j v hold] at hj
        cases hj
      | none => exact h.unknown j hold
  · intro j v hj
    dsimp only at hj ⊢
    by_cases hji : j = i
    · subst hji
      rw [Function.update_self] at hj
      obtain rfl := Option.some.inj hj
      rw [Function.update_self, hspawned]
      show _ = (spawnedBy innerPoll _ (w.inner.log ++ [_]).length).length
      rw [List.length_append, List.length_singleton, spawnedBy, List.length_append]
    · rw [Function.update_of_ne hji] at hj ⊢
      cases hold : p.task j with
      | some v' =>
        rw [hknown j v' hold] at hj
        obtain rfl := Option.some.inj hj
        exact h.spawned j v' hold
      | none =>
        rw [h.withChildren_new hw hold hj, (h.unknown j hold).2.2]
        rfl
  · intro r
    dsimp only
    rw [hsome]
    exact h.root r
  · intro j k
    dsimp only
    rw [hsome, hsome]
    exact h.isSome_withChildren hw _ j k

/-- **A pool goes along with a machine that has all tasks from the start**; for an event of a task
that there is not yet, the machine stays. -/
theorem Mirrors.step (h : Mirrors innerPoll roots p m)
    (hisolated : Isolated (fun _ => quiet innerPoll) (fun i => origin innerPoll roots i) none m)
    (event : Event T (TaskId R) U) :
    Mirrors innerPoll roots (p.step innerPoll event).1 m ∨
      Mirrors innerPoll roots (p.step innerPoll event).1
        (Schedule.step (fun _ => quiet innerPoll) m event).1 := by
  cases event with
  | enter t i =>
    cases ht : p.activity t with
    | idle =>
      cases hi : p.poller i with
      | none =>
        cases hw : p.task i with
        | some w => exact .inr (h.enter t i ht hi hw)
        | none => exact .inl (by simpa only [Pool.step, ht, hi, hw] using h)
      | some t' => exact .inl (by simpa only [Pool.step, ht, hi] using h)
    | entered i' prev => exact .inl (by simpa only [Pool.step, ht] using h)
    | polled i' prev => exact .inl (by simpa only [Pool.step, ht] using h)
  | inner t =>
    cases ht : p.activity t with
    | idle => exact .inl (by simpa only [Pool.step, ht] using h)
    | entered i prev => exact .inr (h.inner hisolated t ht)
    | polled i prev => exact .inl (by simpa only [Pool.step, ht] using h)
  | leave t =>
    cases ht : p.activity t with
    | idle => exact .inl (by simpa only [Pool.step, ht] using h)
    | entered i prev => exact .inl (by simpa only [Pool.step, ht] using h)
    | polled i prev =>
      cases hw : p.task i with
      | some w => exact .inr (h.leave t ht hw)
      | none => exact .inl (by simpa only [Pool.step, ht, hw] using h)
  | outside t content =>
    cases ht : p.activity t with
    | idle =>
      right
      have ht' := ht
      rw [h.activity] at ht'
      simp only [Pool.step, Schedule.step, ht, ht', h.cell, h.ambient]
      exact ⟨rfl, h.activity, h.poller, rfl, h.known, h.unknown, h.spawned, h.root, h.child⟩
    | entered i prev => exact .inl (by simpa only [Pool.step, ht] using h)
    | polled i prev => exact .inl (by simpa only [Pool.step, ht] using h)

theorem after_mirrors (innerPoll : SpawningPoll F O U) (roots : R → WithContext F U)
    (cells : T → Cell U) (schedule : List (Event T (TaskId R) U)) :
    ∃ m, Mirrors innerPoll roots (Pool.after innerPoll roots cells schedule) m ∧
      Isolated (fun _ => quiet innerPoll) (fun i => origin innerPoll roots i) none m := by
  have hstep : ∀ (p : Pool T R F O U) (event : Event T (TaskId R) U),
      (∃ m, Mirrors innerPoll roots p m ∧ Isolated (fun _ => quiet innerPoll)
        (fun i => origin innerPoll roots i) none m) →
      ∃ m, Mirrors innerPoll roots (p.step innerPoll event).1 m ∧ Isolated
        (fun _ => quiet innerPoll) (fun i => origin innerPoll roots i) none m := by
    rintro p event ⟨m, hm, hisolated⟩
    rcases hm.step hisolated event with hsame | hstep
    · exact ⟨m, hsame, hisolated⟩
    · exact ⟨_, hstep, step_isolated m event hisolated⟩
  exact run_invariant hstep schedule _
    ⟨_, start_mirrors innerPoll roots cells, start_isolated _ _ none cells⟩

end Mirrors

/-! ## Every task runs as alone -/

section Spawned

variable {T R F O : Type} [DecidableEq T] [DecidableEq R] (innerPoll : SpawningPoll F O U)
  (roots : R → WithContext F U) (cells : T → Cell U)

/-- Polls change nothing of what the code outside them left in a cell. -/
theorem Pool.ambient_of_not_outside (t : T) (schedule : List (Event T (TaskId R) U)) :
    ∀ p : Pool T R F O U, (∀ content, Event.outside t content ∉ schedule) →
      (run (Pool.step innerPoll) p schedule).1.ambient t = p.ambient t := by
  induction schedule with
  | nil => exact fun _ _ => rfl
  | cons event schedule ih =>
    intro p hnone
    have hrest : ∀ content, Event.outside t content ∉ schedule := fun content hmem =>
      hnone content (List.mem_cons_of_mem event hmem)
    rw [run_cons, ih _ hrest]
    cases event with
    | enter t' i => simp only [step]; split <;> rfl
    | inner t' => simp only [step]; split <;> [split <;> rfl; rfl]
    | leave t' => simp only [step]; split <;> [split <;> rfl; rfl]
    | outside t' content =>
      have hne : t ≠ t' := by
        rintro rfl
        exact hnone content List.mem_cons_self
      simp only [step]
      split
      · exact Function.update_of_ne hne _ _
      · rfl

theorem Pool.idle_cell {schedule : List (Event T (TaskId R) U)} {t : T}
    (ht : (Pool.after innerPoll roots cells schedule).activity t = .idle) :
    (Pool.after innerPoll roots cells schedule).cell t =
      (Pool.after innerPoll roots cells schedule).ambient t := by
  obtain ⟨m, hm, hisolated⟩ := after_mirrors innerPoll roots cells schedule
  rw [hm.cell, hm.ambient]
  rw [hm.activity] at ht
  exact hisolated.idle t ht

omit [DecidableEq R] in
/-- The log tells how many polls there have been. -/
theorem AsAlone.alone_eq {i : TaskId R} {w : WithContext (Observed F O U) U}
    (h : AsAlone (fun _ => quiet innerPoll) (fun i => origin innerPoll roots i) none i w) :
    (alone (quiet innerPoll) (origin innerPoll roots i) none w.inner.log.length).1 = w := by
  obtain ⟨n, rfl⟩ := h
  rw [length_log_alone]

/-- What a task has been through, and the store it holds while it is not polled. -/
theorem Pool.task_alone {schedule : List (Event T (TaskId R) U)} {i : TaskId R}
    {w : WithContext (Observed F O U) U}
    (hw : (Pool.after innerPoll roots cells schedule).task i = some w) :
    let single := (alone (quiet innerPoll) (origin innerPoll roots i) none w.inner.log.length).1
    w.inner = single.inner ∧
      ((Pool.after innerPoll roots cells schedule).poller i = none → w.store = single.store) := by
  obtain ⟨m, hm, hisolated⟩ := after_mirrors innerPoll roots cells schedule
  have htask := hm.known i w hw
  dsimp only
  rw [hm.poller]
  cases hpoller : m.poller i with
  | none =>
    have halone := hisolated.suspended i hpoller
    rw [htask] at halone
    rw [halone.alone_eq]
    exact ⟨rfl, fun _ => rfl⟩
  | some t =>
    obtain ⟨prev, hcurrent⟩ := hisolated.busy i t hpoller
    obtain ⟨-, -, halone⟩ := hisolated.current t i prev hcurrent
    rw [htask] at halone
    have heq := halone.alone_eq
    dsimp only at heq
    rw [heq]
    exact ⟨rfl, fun h => by cases h⟩

/-- **Every task of every schedule** is the one that its name says, with the children that its polls
alone spawn, and runs as it does alone; and between two moments at which a thread is idle, polls
leave its cell as it was. -/
theorem spawned_isolated (schedule later : List (Event T (TaskId R) U)) :
    let p := Pool.after innerPoll roots cells schedule
    (∀ t, p.activity t = .idle →
        (Pool.after innerPoll roots cells (schedule ++ later)).activity t = .idle →
        (∀ content, Event.outside t content ∉ later) →
        (Pool.after innerPoll roots cells (schedule ++ later)).cell t = p.cell t) ∧
      (∀ i w, p.task i = some w →
        let single := (alone (quiet innerPoll) (origin innerPoll roots i) none
          w.inner.log.length).1
        w.inner = single.inner ∧ (p.poller i = none → w.store = single.store)) ∧
      (∀ r, (p.task (.root r)).isSome) ∧
      ∀ i k, (p.task (.child i k)).isSome ↔ ∃ w, p.task i = some w ∧
        k < (spawnedBy innerPoll (origin innerPoll roots i) w.inner.log.length).length := by
  dsimp only
  refine ⟨?_, fun i w hw => Pool.task_alone innerPoll roots cells hw, ?_, ?_⟩
  · intro t hbefore hafter hnone
    rw [Pool.idle_cell innerPoll roots cells hbefore, Pool.idle_cell innerPoll roots cells hafter,
      Pool.after, run_append]
    exact Pool.ambient_of_not_outside innerPoll t later _ hnone
  · obtain ⟨m, hm, -⟩ := after_mirrors innerPoll roots cells schedule
    exact hm.root
  · intro i k
    obtain ⟨m, hm, -⟩ := after_mirrors innerPoll roots cells schedule
    rw [hm.child, Option.isSome_iff_exists]
    constructor
    · rintro ⟨⟨w, hw⟩, hk⟩
      exact ⟨w, hw, hm.spawned i w hw ▸ hk⟩
    · rintro ⟨w, hw, hk⟩
      exact ⟨⟨w, hw⟩, (hm.spawned i w hw).symm ▸ hk⟩

/-- **Two schedules that poll a task as often agree on it**, whatever the threads, their contexts
and the other tasks do: on its state, and on the children it has. -/
theorem spawn_confluent {T' : Type} [DecidableEq T'] (cells' : T' → Cell U)
    (schedule : List (Event T (TaskId R) U)) (schedule' : List (Event T' (TaskId R) U))
    (i : TaskId R) (w w' : WithContext (Observed F O U) U)
    (hw : (Pool.after innerPoll roots cells schedule).task i = some w)
    (hw' : (Pool.after innerPoll roots cells' schedule').task i = some w')
    (hpolls : w.inner.log.length = w'.inner.log.length) :
    w.inner = w'.inner ∧
      ((Pool.after innerPoll roots cells schedule).poller i = none →
        (Pool.after innerPoll roots cells' schedule').poller i = none → w = w') ∧
      ∀ k, ((Pool.after innerPoll roots cells schedule).task (.child i k)).isSome =
        ((Pool.after innerPoll roots cells' schedule').task (.child i k)).isSome := by
  have halone := Pool.task_alone innerPoll roots cells hw
  have halone' := Pool.task_alone innerPoll roots cells' hw'
  dsimp only at halone halone'
  rw [← hpolls] at halone'
  refine ⟨halone.1.trans halone'.1.symm, ?_, fun k => ?_⟩
  · intro hpoller hpoller'
    obtain ⟨inner, store⟩ := w
    obtain ⟨inner', store'⟩ := w'
    obtain rfl : inner = inner' := halone.1.trans halone'.1.symm
    obtain rfl : store = store' := (halone.2 hpoller).trans (halone'.2 hpoller').symm
    rfl
  · obtain ⟨m, hm, -⟩ := after_mirrors innerPoll roots cells schedule
    obtain ⟨m', hm', -⟩ := after_mirrors innerPoll roots cells' schedule'
    rw [Bool.eq_iff_iff, hm.child, hm'.child, hw, hw', hm.spawned i w hw, hm'.spawned i w' hw',
      hpolls]
    rfl

end Spawned

/-- A future that spawns a fork of what it finds in the cell, in every poll. -/
def forking : SpawningPoll Unit Unit primitiveTypes := fun fut cell =>
  ((.pending, fut, cell), [Future.fork fut cell])

/-- The polls of a task and of its first child, on these threads. -/
def forkingSchedule {T : Type} (t t' : T) : List (Event T (TaskId Unit) primitiveTypes) :=
  [.enter t (.root ()), .inner t, .leave t, .enter t' (.child (.root ()) 0), .inner t', .leave t']

/-- The first child, after one poll on another thread and on the same. -/
theorem spawn_confluent_forking :
    let roots : Unit → WithContext Unit primitiveTypes := fun _ => ⟨(), some .new⟩
    (Pool.after forking roots (fun _ => none) (forkingSchedule true false)).task
        (.child (.root ()) 0) =
      (Pool.after forking roots (fun _ => none) (forkingSchedule () ())).task
        (.child (.root ()) 0) := by
  intro roots
  have hconfluent := spawn_confluent forking roots (fun _ => none) (fun _ => none)
    (forkingSchedule true false) (forkingSchedule () ()) (.child (.root ()) 0) _ _ rfl rfl rfl
  exact congrArg some (hconfluent.2.1 rfl rfl)

end Schedule

end DContext
