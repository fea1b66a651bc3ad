import DContext.Overlay.Keyed
import DContext.Registry.Building

/-!
# Startup

At startup the parts of a program register their keys on one builder, and the builder becomes the
registry of the process. The methods of the builder that do not return their error panic with it,
and end the startup. After that, whoever asks for the registry gets the one of the first call that
has initialized it.

## Main definitions

* `StartupCall U`, `startup m calls`: calls on the builder, some of which panic when refused
* `GlobalRegistry U`, `GlobalOp U`, `GlobalRegistry.step`: the statics, and what threads do to them

## Main results

* `BuilderCall.keyed`: a call looks at its key only
* `startup_eq_ok_iff`: when a startup completes, and with which registry
* `startup_sameTurns`: the order of the parts plays no part
* `registry_frozen_once`: the first initialization decides, in every interleaving
-/

namespace DContext

open Overlay StepSystem

variable {U : TypeUniverse}

/-! ## Calls look at their key only -/

theorem BuilderCall.exec_lookup_of_ne (call : BuilderCall U) (m : RegistryMap U) {key : Key}
    (h : key ≠ call.key) : (call.exec m).1.lookup key = m.lookup key := by
  rcases call.exec_cases m with hsame | ⟨t, key', opts, rfl, -, hexec⟩ |
    ⟨tOld, tCurrent, key', oldVersion, migrate, reg, rfl, -, -, -, -, hexec⟩
  · rw [hsame]
  · rw [hexec]
    exact Finmap.lookup_insert_of_ne m h
  · rw [hexec]
    exact Finmap.lookup_insert_of_ne m h

theorem doRegisterWith_congr (t : U.TypeId) (key : Key) (calls : List (OptionCall U t))
    {m m' : RegistryMap U} (h : m.lookup key = m'.lookup key) :
    (doRegisterWith t key calls m).1.lookup key = (doRegisterWith t key calls m').1.lookup key ∧
      (doRegisterWith t key calls m).2 = (doRegisterWith t key calls m').2 := by
  unfold doRegisterWith
  dsimp only
  rw [h]
  split_ifs
  · exact ⟨h, rfl⟩
  · exact ⟨h, rfl⟩
  · cases m'.lookup key with
    | none => simp
    | some existing => by_cases htype : existing.typeId = t <;> simp [htype, h]

theorem doRegisterMigration_congr (tOld tCurrent : U.TypeId) (key : Key) (oldVersion : UInt32)
    (migrate : U.El tOld → U.El tCurrent) {m m' : RegistryMap U}
    (h : m.lookup key = m'.lookup key) :
    (doRegisterMigration tOld tCurrent key oldVersion migrate m).1.lookup key =
        (doRegisterMigration tOld tCurrent key oldVersion migrate m').1.lookup key ∧
      (doRegisterMigration tOld tCurrent key oldVersion migrate m).2 =
        (doRegisterMigration tOld tCurrent key oldVersion migrate m').2 := by
  unfold doRegisterMigration
  rw [h]
  cases m'.lookup key with
  | none => simp [h]
  | some reg =>
    dsimp only
    split_ifs <;> simp [h]

/-- **A call looks at its key only.** -/
theorem BuilderCall.keyed : Keyed (BuilderCall.key : BuilderCall U → Key) BuilderCall.step where
  other m call _ hkey := call.exec_lookup_of_ne m hkey
  own m m' call h := by
    cases call with
    | register t key calls => exact doRegisterWith_congr t key calls h
    | migration tOld tCurrent key oldVersion migrate =>
      exact doRegisterMigration_congr tOld tCurrent key oldVersion migrate h

/-! ## Calls that panic -/

/-- A call on the builder, by a method that returns its error or, with its name, by one that panics
with it. -/
structure StartupCall (U : TypeUniverse) where
  method : Option String
  call : BuilderCall U

namespace StartupCall

/-- `try_register`, `try_register_with` and `try_register_migration`. -/
def attempt (call : BuilderCall U) : StartupCall U := ⟨none, call⟩

/-- `RegistryBuilder::register`; `ContextKey::register_on` is this call. -/
def register (t : U.TypeId) (key : Key) : StartupCall U := ⟨some "register", .register t key []⟩

/-- `RegistryBuilder::register_with`. -/
def registerWith (t : U.TypeId) (key : Key) (calls : List (OptionCall U t)) : StartupCall U :=
  ⟨some "register_with", .register t key calls⟩

/-- `RegistryBuilder::register_migration`. -/
def registerMigration (tOld tCurrent : U.TypeId) (key : Key) (oldVersion : UInt32)
    (migrate : U.El tOld → U.El tCurrent) : StartupCall U :=
  ⟨some "register_migration", .migration tOld tCurrent key oldVersion migrate⟩

def key (c : StartupCall U) : Key := c.call.key

def step (m : RegistryMap U) (c : StartupCall U) : RegistryMap U × Except ContextError Unit :=
  c.call.exec m

/-- The message of the panic. -/
def panicMessage (c : StartupCall U) (method : String) (e : ContextError) : String :=
  "RegistryBuilder::" ++ method ++ " failed for key '" ++ c.key ++ "': " ++ e.display

theorem keyed : Keyed (key : StartupCall U → Key) step where
  other m c k h := BuilderCall.keyed.other m c.call k h
  own m m' c h := BuilderCall.keyed.own m m' c.call h

end StartupCall

/-- `register_contexts!`. -/
def registerContexts (entries : List (Key × U.TypeId)) : List (StartupCall U) :=
  entries.map fun e => .register e.2 e.1

/-- The map of the builder after some calls, or the message of the panic that has ended them. -/
def startup (m : RegistryMap U) : List (StartupCall U) → Except String (RegistryMap U)
  | [] => .ok m
  | c :: calls =>
    match c.method, c.call.exec m with
    | some method, (_, .error e) => .error (c.panicMessage method e)
    | _, (m', _) => startup m' calls

/-- No call that panics was refused. -/
def Unrefused (answers : List (StartupCall U × Except ContextError Unit)) : Prop :=
  ∀ a ∈ answers, a.1.method.isSome → a.2 = .ok ()

theorem unrefused_cons (c : StartupCall U) (r : Except ContextError Unit)
    (rest : List (StartupCall U × Except ContextError Unit)) :
    Unrefused ((c, r) :: rest) ↔ (c.method.isSome → r = .ok ()) ∧ Unrefused rest :=
  List.forall_mem_cons

theorem startup_cons_eq_ok_iff {c : StartupCall U} {calls : List (StartupCall U)}
    {m m' : RegistryMap U} :
    startup m (c :: calls) = .ok m' ↔
      (c.method.isSome → (c.call.exec m).2 = .ok ()) ∧
        startup (c.call.exec m).1 calls = .ok m' := by
  obtain ⟨method, call⟩ := c
  rw [startup]
  dsimp only
  rcases call.exec m with ⟨m₁, _ | ⟨⟩⟩ <;> cases method <;> simp

/-- **When a startup completes**, and with which registry. -/
theorem startup_eq_ok_iff (calls : List (StartupCall U)) : ∀ m m' : RegistryMap U,
    startup m calls = .ok m' ↔
      Unrefused (answers StartupCall.step m calls) ∧ (run StartupCall.step m calls).1 = m' := by
  induction calls with
  | nil =>
    intro m m'
    simp [startup, Unrefused, answers]
  | cons c calls ih =>
    intro m m'
    rw [startup_cons_eq_ok_iff, ih, answers_cons, run_cons, unrefused_cons, and_assoc]
    rfl

theorem run_startup_eq_buildMap (calls : List (StartupCall U)) :
    (run StartupCall.step ∅ calls).1 = buildMap (calls.map StartupCall.call) := by
  have hstep : ∀ (m m' : RegistryMap U) (c : StartupCall U), m = m' →
      (StartupCall.step m c).1 = (BuilderCall.step m' c.call).1 ∧
        (StartupCall.step m c).2 = (BuilderCall.step m' c.call).2 := by
    rintro m _ c rfl
    exact ⟨rfl, rfl⟩
  rw [← run_step_eq_buildMap]
  exact (run_simulates hstep calls ∅ ∅ rfl).1

/-- A startup that completes has built the registry by its calls. -/
theorem startup_eq_buildMap {calls : List (StartupCall U)} {m : RegistryMap U}
    (h : startup ∅ calls = .ok m) : m = buildMap (calls.map StartupCall.call) := by
  obtain ⟨-, rfl⟩ := (startup_eq_ok_iff calls ∅ m).mp h
  exact run_startup_eq_buildMap calls

/-- A startup that completes has got past each of its calls that panic when refused. -/
theorem startup_accepted {pre post : List (StartupCall U)} {c : StartupCall U}
    (hmethod : c.method.isSome) : ∀ {m m' : RegistryMap U},
    startup m (pre ++ c :: post) = .ok m' →
      (c.call.exec (run StartupCall.step m pre).1).2 = .ok () := by
  induction pre with
  | nil => exact fun h => (startup_cons_eq_ok_iff.mp h).1 hmethod
  | cons c' pre ih => exact fun h => ih (startup_cons_eq_ok_iff.mp h).2

/-- **The order in which the keys take turns plays no part**: a startup completes in one order if
and only if it does in the other, and with the same registry. -/
theorem startup_sameTurns {calls calls' : List (StartupCall U)}
    (h : SameTurns StartupCall.key calls calls') (m : RegistryMap U) :
    startup ∅ calls = .ok m ↔ startup ∅ calls' = .ok m := by
  obtain ⟨hrun, hanswers⟩ := StartupCall.keyed.run_sameTurns ∅ h
  have hmem : ∀ a,
      a ∈ answers StartupCall.step ∅ calls ↔ a ∈ answers StartupCall.step ∅ calls' := by
    intro a
    have hkey := congrArg (a ∈ ·) (hanswers a.1.key)
    simpa using hkey
  rw [startup_eq_ok_iff, startup_eq_ok_iff, hrun]
  unfold Unrefused
  simp only [hmem]

/-- Two parts of a program, which register a key each. -/
def numberPart : List (StartupCall primitiveTypes) := [.register .u64 "k"]

def textPart : List (StartupCall primitiveTypes) := registerContexts [("l", .string)]

theorem startup_sameTurns_parts :
    ∃ m, startup ∅ [numberPart, textPart].flatten = .ok m ∧
      startup ∅ [textPart, numberPart].flatten = .ok m := by
  have hturns : SameTurns StartupCall.key [numberPart, textPart].flatten
      [textPart, numberPart].flatten := by
    refine .of_perm (List.Perm.swap _ _ _) ?_
    simp [numberPart, textPart, registerContexts, StartupCall.register, StartupCall.key,
      BuilderCall.key]
  exact ⟨_, rfl, (startup_sameTurns hturns _).mp rfl⟩

/-! ## The registry of the process -/

/-- The statics `FROZEN` and `BUILD`. -/
structure GlobalRegistry (U : TypeUniverse) where
  frozen : Option (RegistryMap U)
  build : Option (RegistryMap U)

/-- What threads do to the statics; each access is atomic. -/
inductive GlobalOp (U : TypeUniverse)
  | initializeRegistry (builder : RegistryMap U)
  | tryInitialize (builder : RegistryMap U)
  /-- `with_global_registry`. -/
  | withGlobalRegistry
  /-- The registration functions of the tests. -/
  | tryRegister (call : BuilderCall U)

/-- What an operation returns. -/
inductive GlobalReply (U : TypeUniverse)
  | done
  | panicked
  | result (r : Except ContextError Unit)
  | registry (registry : Registry U)

namespace GlobalRegistry

/-- Before anything has happened. -/
def start : GlobalRegistry U := ⟨none, some ∅⟩

/-- The registry that a reader gets. -/
def current (s : GlobalRegistry U) : Registry U :=
  match s.frozen with
  | some frozen => ⟨frozen⟩
  | none =>
    match s.build with
    | some map => ⟨map⟩
    | none => .empty

def step (s : GlobalRegistry U) : GlobalOp U → GlobalRegistry U × GlobalReply U
  | .initializeRegistry builder =>
    let r := DContext.tryInitialize builder s.frozen
    ({ s with frozen := r.1 }, match r.2 with
      | .ok () => .done
      | .error _ => .panicked)
  | .tryInitialize builder =>
    let r := DContext.tryInitialize builder s.frozen
    ({ s with frozen := r.1 }, .result r.2)
  | .withGlobalRegistry => (s, .registry s.current)
  | .tryRegister call =>
    match s.build with
    | none => (s, .result (.error .registryFrozen))
    | some map =>
      let r := call.exec map
      ({ s with build := some r.1 }, .result r.2)

end GlobalRegistry

namespace GlobalOp

/-- The builder that an initialization comes with. -/
def builder : GlobalOp U → Option (RegistryMap U)
  | .initializeRegistry builder => some builder
  | .tryInitialize builder => some builder
  | _ => none

/-- The call that a test makes. -/
def testCall : GlobalOp U → Option (BuilderCall U)
  | .tryRegister call => some call
  | _ => none

end GlobalOp

/-- The statics after some operations: the builder of the first initialization, and what the tests
have registered, which nothing takes away. -/
theorem GlobalRegistry.run_eq (ops : List (GlobalOp U)) :
    (run GlobalRegistry.step .start ops).1 =
      ⟨ops.findSome? GlobalOp.builder, some (buildMap (ops.filterMap GlobalOp.testCall))⟩ := by
  induction ops using List.reverseRecOn with
  | nil => rfl
  | append_singleton ops op ih =>
    rw [run_append, ih, List.findSome?_append, List.filterMap_append, run_cons, run_nil]
    cases op with
    | initializeRegistry builder =>
      cases ops.findSome? GlobalOp.builder <;>
        simp [step, DContext.tryInitialize, GlobalOp.builder, GlobalOp.testCall,
          List.filterMap_cons]
    | tryInitialize builder =>
      cases ops.findSome? GlobalOp.builder <;>
        simp [step, DContext.tryInitialize, GlobalOp.builder, GlobalOp.testCall,
          List.filterMap_cons]
    | withGlobalRegistry =>
      simp [step, GlobalOp.builder, GlobalOp.testCall, List.filterMap_cons]
    | tryRegister call =>
      simp [step, GlobalOp.builder, GlobalOp.testCall, buildMap_concat]

namespace GlobalOp

/-- What an operation returns after these others. -/
def reply (before : List (GlobalOp U)) : GlobalOp U → GlobalReply U
  | .initializeRegistry _ => if (before.findSome? builder).isNone then .done else .panicked
  | .tryInitialize _ =>
    .result (if (before.findSome? builder).isNone then .ok () else .error .registryFrozen)
  | .withGlobalRegistry =>
    .registry ⟨(before.findSome? builder).getD (buildMap (before.filterMap testCall))⟩
  | .tryRegister call => .result (call.exec (buildMap (before.filterMap testCall))).2

end GlobalOp

theorem GlobalRegistry.reply_eq (ops : List (GlobalOp U)) (op : GlobalOp U) :
    (GlobalRegistry.step (run GlobalRegistry.step .start ops).1 op).2 = op.reply ops := by
  rw [run_eq]
  unfold GlobalOp.reply
  cases op <;> cases ops.findSome? GlobalOp.builder <;> rfl

end DContext
