import DContext.Registry.Registration
import DContext.System.Run

/-!
# What a sequence of calls builds

A call on the builder that is refused leaves the map as it is. One that is accepted may still do
less than it asks for: a key that is registered with the same type keeps its first registration,
and a migration takes the place of an earlier one for the same version.

## Main definitions

* `tryInitialize`: the builder's map becomes the registry
* `Succeeded calls call`: the call is one of the sequence and was answered `Ok`
* `MetBy call reg`: the registration has what the call asked for
* `Unopposed m call`: what the map holds where the call would be ignored, or overwrite, is what it
  asks for
* `Registration.Later reg reg'`: `reg'` is `reg` after more calls

## Main results

* `lookup_exec`: what a call makes of a registration
* `takesEffect_iff`: when everything that was accepted is found in the registry
-/

namespace DContext

open Overlay StepSystem

variable {U : TypeUniverse}

/-- `try_initialize`: the content of `FROZEN` after the call, and the call's result. -/
def tryInitialize (builder : RegistryMap U) (frozen : Option (RegistryMap U)) :
    Option (RegistryMap U) × Except ContextError Unit :=
  match frozen with
  | none => (some builder, .ok ())
  | some map => (some map, .error .registryFrozen)

/-! ## Requests -/

/-- A local-only key has no codec and no version of its own. -/
def RegistrationOptions.Consistent {t : U.TypeId} (opts : RegistrationOptions U t) : Prop :=
  opts.localOnly = true → opts.encode = none ∧ opts.decode = none ∧ opts.version = 1

/-- The registration has the type and the options. -/
structure Registration.Matches (reg : Registration U) {t : U.TypeId}
    (opts : RegistrationOptions U t) : Prop where
  typeId : reg.typeId = t
  keyVersion : reg.keyVersion = opts.version
  localOnly : reg.localOnly = opts.localOnly
  cached : reg.cached = opts.cached
  encode : reg.serializeFn = opts.encode.map (customSerializer t)
  decode : opts.localOnly = false →
    reg.deserializers.lookup opts.version = some (nativeDeserializer t opts.decode)
  metadata : reg.metadata = opts.metadata

/-- The registration reads bytes of an old version with the old type and the migration. -/
def Registration.Migrates (reg : Registration U) (tOld tCurrent : U.TypeId) (oldVersion : UInt32)
    (migrate : U.El tOld → U.El tCurrent) : Prop :=
  reg.deserializers.lookup oldVersion = some (migrationDeserializer tOld tCurrent migrate)

namespace BuilderCall

def key : BuilderCall U → Key
  | .register _ key _ => key
  | .migration _ _ key _ _ => key

/-- The registration has what the call asked for. -/
def MetBy (reg : Registration U) : BuilderCall U → Prop
  | .register _ _ calls => reg.Matches (.configure calls)
  | .migration tOld tCurrent _ oldVersion migrate =>
      reg.typeId = tCurrent ∧ reg.Migrates tOld tCurrent oldVersion migrate

/-- Two requests for one key that no registration can meet both. -/
def Conflicts (call call' : BuilderCall U) : Prop :=
  call.key = call'.key ∧ ∀ reg, ¬ (call.MetBy reg ∧ call'.MetBy reg)

/-- Where the call would be accepted for a key with the same type and then ignored, or would
overwrite a migration, the map holds what it asks for. -/
def Unopposed (m : RegistryMap U) : BuilderCall U → Prop
  | .register t key calls =>
      ∀ reg, m.lookup key = some reg → reg.typeId = t →
        (RegistrationOptions.configure calls : RegistrationOptions U t).Consistent →
        reg.Matches (RegistrationOptions.configure calls : RegistrationOptions U t)
  | .migration tOld tCurrent key oldVersion migrate =>
      ∀ reg, m.lookup key = some reg → reg.typeId = tCurrent → reg.localOnly = false →
        oldVersion ≠ reg.keyVersion → oldVersion ∈ reg.deserializers →
        reg.Migrates tOld tCurrent oldVersion migrate

/-- The builder as a step system. -/
def step (m : RegistryMap U) (call : BuilderCall U) : RegistryMap U × Except ContextError Unit :=
  call.exec m

end BuilderCall

theorem run_step_eq_buildMap (calls : List (BuilderCall U)) :
    (run BuilderCall.step ∅ calls).1 = buildMap calls := by
  suffices h : ∀ m : RegistryMap U,
      (run BuilderCall.step m calls).1 = calls.foldl (fun m call => (call.exec m).1) m from h ∅
  induction calls with
  | nil => exact fun m => rfl
  | cons call calls ih => exact fun m => ih _

/-! ## When a call is accepted -/

theorem doRegisterWith_of_consistent {t : U.TypeId} {calls : List (OptionCall U t)}
    (h : (RegistrationOptions.configure calls).Consistent) (key : Key) (m : RegistryMap U) :
    doRegisterWith t key calls m =
      match m.lookup key with
      | some existing =>
        if existing.typeId = t then (m, .ok ()) else (m, .error (.alreadyRegistered key))
      | none => (m.insert key (newRegistration t key (.configure calls)), .ok ()) := by
  have hcodec : ¬ ((RegistrationOptions.configure calls).localOnly = true ∧
      ((RegistrationOptions.configure calls).encode.isSome = true ∨
        (RegistrationOptions.configure calls).decode.isSome = true)) := by
    rintro ⟨hlocal, hcodec⟩
    obtain ⟨hencode, hdecode, -⟩ := h hlocal
    simp [hencode, hdecode] at hcodec
  have hversion : ¬ ((RegistrationOptions.configure calls).localOnly = true ∧
      (RegistrationOptions.configure calls).version ≠ 1) := by
    rintro ⟨hlocal, hversion⟩
    exact hversion (h hlocal).2.2
  exact (if_neg hcodec).trans (if_neg hversion)

theorem doRegisterWith_ok_iff {t : U.TypeId} {key : Key} {calls : List (OptionCall U t)}
    {m : RegistryMap U} :
    (doRegisterWith t key calls m).2 = .ok () ↔
      (RegistrationOptions.configure calls).Consistent ∧
        ∀ reg, m.lookup key = some reg → reg.typeId = t := by
  by_cases h : (RegistrationOptions.configure calls).Consistent
  · rw [doRegisterWith_of_consistent h]
    cases hl : m.lookup key with
    | none => simp [h]
    | some existing => by_cases htype : existing.typeId = t <;> simp [h, htype]
  · refine iff_of_false (fun hok => h fun hlocal => ?_) fun hok => h hok.1
    unfold doRegisterWith at hok
    dsimp only at hok
    split_ifs at hok with hcodec hversion
    simp only [hlocal, true_and, not_or, not_not, Bool.not_eq_true, Option.isSome_eq_false_iff,
      Option.isNone_iff_eq_none, ne_eq] at hcodec hversion
    exact ⟨hcodec.1, hcodec.2, hversion⟩

theorem doRegisterMigration_of_lookup {tOld tCurrent : U.TypeId} {key : Key}
    {oldVersion : UInt32} (migrate : U.El tOld → U.El tCurrent) {m : RegistryMap U}
    {reg : Registration U} (hreg : m.lookup key = some reg) (htype : reg.typeId = tCurrent)
    (hlocal : reg.localOnly = false) (hversion : oldVersion ≠ reg.keyVersion) :
    doRegisterMigration tOld tCurrent key oldVersion migrate m =
      (m.insert key { reg with
          deserializers := reg.deserializers.insert oldVersion
            (migrationDeserializer tOld tCurrent migrate) },
        .ok ()) := by
  unfold doRegisterMigration
  rw [hreg]
  dsimp only
  rw [if_neg (not_not.mpr htype), if_neg (ne_true_of_eq_false hlocal), if_neg hversion]

theorem doRegisterMigration_ok_iff {tOld tCurrent : U.TypeId} {key : Key} {oldVersion : UInt32}
    {migrate : U.El tOld → U.El tCurrent} {m : RegistryMap U} :
    (doRegisterMigration tOld tCurrent key oldVersion migrate m).2 = .ok () ↔
      ∃ reg, m.lookup key = some reg ∧ reg.typeId = tCurrent ∧ reg.localOnly = false ∧
        oldVersion ≠ reg.keyVersion := by
  constructor
  · intro hok
    unfold doRegisterMigration at hok
    cases hl : m.lookup key with
    | none => simp [hl] at hok
    | some reg =>
      rw [hl] at hok
      dsimp only at hok
      split_ifs at hok with htype hlocal hversion
      exact ⟨reg, rfl, not_not.mp htype, Bool.eq_false_iff.mpr hlocal, hversion⟩
  · rintro ⟨reg, hreg, htype, hlocal, hversion⟩
    rw [doRegisterMigration_of_lookup migrate hreg htype hlocal hversion]

/-! ## What a call makes of a registration -/

/-- `reg'` is `reg` after more calls: it may read more versions, and the registered one as
before. -/
structure Registration.Later (reg reg' : Registration U) : Prop where
  same : reg' = { reg with deserializers := reg'.deserializers }
  native : reg'.deserializers.lookup reg.keyVersion = reg.deserializers.lookup reg.keyVersion

namespace Registration.Later

variable {reg reg' reg'' : Registration U}

theorem refl (reg : Registration U) : Later reg reg := ⟨rfl, rfl⟩

theorem typeId (h : Later reg reg') : reg'.typeId = reg.typeId := by rw [h.same]

theorem keyVersion (h : Later reg reg') : reg'.keyVersion = reg.keyVersion := by rw [h.same]

theorem localOnly (h : Later reg reg') : reg'.localOnly = reg.localOnly := by rw [h.same]

theorem serializeFn (h : Later reg reg') : reg'.serializeFn = reg.serializeFn := by rw [h.same]

theorem trans (h : Later reg reg') (h' : Later reg' reg'') : Later reg reg'' := by
  constructor
  · rw [h'.same, h.same]
  · rw [← h.native, ← h.keyVersion, h'.native]

/-- A registration has the options it was made with, and no others, whatever is called later. -/
theorem matches_iff (h : Later reg reg') {t : U.TypeId} (opts : RegistrationOptions U t) :
    reg'.Matches opts ↔ reg.Matches opts := by
  have hnative := h.native
  constructor
  · rintro ⟨htype, hversion, hlocal, hcached, hencode, hdecode, hmetadata⟩
    rw [h.same] at htype hversion hlocal hcached hencode hmetadata
    refine ⟨htype, hversion, hlocal, hcached, hencode, fun hopts => ?_, hmetadata⟩
    rw [← hversion, ← hnative, hversion]
    exact hdecode hopts
  · rintro ⟨htype, hversion, hlocal, hcached, hencode, hdecode, hmetadata⟩
    rw [hversion] at hnative
    rw [h.same]
    exact ⟨htype, hversion, hlocal, hcached, hencode, fun hopts => hnative.trans (hdecode hopts),
      hmetadata⟩

end Registration.Later

/-- **One call and one registration**: the registration stays, as it is but for the versions it
reads, and unless the call is opposed it goes on reading those it has read. -/
theorem lookup_exec (m : RegistryMap U) (call : BuilderCall U) {key : Key} {reg : Registration U}
    (hreg : m.lookup key = some reg) :
    ∃ reg', (call.exec m).1.lookup key = some reg' ∧ reg.Later reg' ∧
      (call.Unopposed m → ∀ version deserFn, reg.deserializers.lookup version = some deserFn →
        reg'.deserializers.lookup version = some deserFn) := by
  rcases call.exec_cases m with hsame | ⟨t, key', opts, -, hnone, hexec⟩ |
    ⟨tOld, tCurrent, key', oldVersion, migrate, reg', rfl, hreg', htype, hlocal, hversion, hexec⟩
  · exact ⟨reg, by rw [hsame, hreg], .refl reg, fun _ _ _ h => h⟩
  · have hne : key ≠ key' := by
      rintro rfl
      rw [hnone] at hreg
      cases hreg
    refine ⟨reg, ?_, .refl reg, fun _ _ _ h => h⟩
    rw [hexec, Map.lookup_insert_eq, if_neg hne, hreg]
  · rw [hexec]
    dsimp only
    rw [Map.lookup_insert_eq]
    split_ifs with hkey
    · subst hkey
      obtain rfl : reg = reg' := Option.some.inj (hreg.symm.trans hreg')
      refine ⟨_, rfl, ⟨rfl, Finmap.lookup_insert_of_ne _ hversion.symm⟩, ?_⟩
      intro hfree version deserFn hdeser
      by_cases heq : version = oldVersion
      · subst heq
        have hmem : version ∈ reg.deserializers := Finmap.mem_iff.mpr ⟨deserFn, hdeser⟩
        have hsame := hfree reg hreg htype hlocal hversion hmem
        rw [Registration.Migrates, hdeser] at hsame
        rw [Finmap.lookup_insert, ← hsame]
      · rw [Finmap.lookup_insert_of_ne _ heq, hdeser]
    · exact ⟨reg, hreg, .refl reg, fun _ _ _ h => h⟩

/-- A call that is refused leaves the map as it is. -/
theorem exec_of_error {m : RegistryMap U} {call : BuilderCall U} {e : ContextError}
    (h : (call.exec m).2 = .error e) : (call.exec m).1 = m := by
  rcases call.exec_cases m with hsame | ⟨t, key, opts, -, -, hexec⟩ |
    ⟨tOld, tCurrent, key, oldVersion, migrate, reg, -, -, -, -, -, hexec⟩
  · exact hsame
  · rw [hexec] at h
    cases h
  · rw [hexec] at h
    cases h

/-- Registrations stay through any further calls. -/
theorem lookup_buildMap_append {calls : List (BuilderCall U)} (more : List (BuilderCall U))
    {key : Key} {reg : Registration U} (hreg : (buildMap calls).lookup key = some reg) :
    ∃ reg', (buildMap (calls ++ more)).lookup key = some reg' ∧ reg.Later reg' := by
  induction more using List.reverseRecOn with
  | nil => exact ⟨reg, by rwa [List.append_nil], .refl reg⟩
  | append_singleton more call ih =>
    obtain ⟨reg', hreg', hlater⟩ := ih
    obtain ⟨reg'', hreg'', hlater', -⟩ := lookup_exec _ call hreg'
    refine ⟨reg'', ?_, hlater.trans hlater'⟩
    rw [← List.append_assoc, buildMap_concat]
    exact hreg''

/-! ## What was accepted -/

/-- The call is one of the sequence and was answered `Ok`. -/
def Succeeded (calls : List (BuilderCall U)) (call : BuilderCall U) : Prop :=
  ∃ pre post, calls = pre ++ call :: post ∧ (call.exec (buildMap pre)).2 = .ok ()

theorem Succeeded.append {calls : List (BuilderCall U)} {call : BuilderCall U}
    (h : Succeeded calls call) (more : List (BuilderCall U)) : Succeeded (calls ++ more) call := by
  obtain ⟨pre, post, rfl, hok⟩ := h
  exact ⟨pre, post ++ more, by simp, hok⟩

theorem Succeeded.last {calls : List (BuilderCall U)} {call : BuilderCall U}
    (h : (call.exec (buildMap calls)).2 = .ok ()) : Succeeded (calls ++ [call]) call :=
  ⟨calls, [], rfl, h⟩

/-- A decoder that is not the native one comes from a migration that was accepted. -/
theorem succeeded_of_decoder (calls : List (BuilderCall U)) :
    ∀ {key : Key} {reg : Registration U} {version : UInt32} {deserFn : DeserializeFn U},
      (buildMap calls).lookup key = some reg → version ≠ reg.keyVersion →
      reg.deserializers.lookup version = some deserFn →
      ∃ (tOld tCurrent : U.TypeId) (migrate : U.El tOld → U.El tCurrent),
        Succeeded calls (.migration tOld tCurrent key version migrate) ∧
          deserFn = migrationDeserializer tOld tCurrent migrate := by
  induction calls using List.reverseRecOn with
  | nil =>
    intro key reg version deserFn hreg
    cases hreg
  | append_singleton calls call ih =>
    intro key reg version deserFn hreg hne hdeser
    rw [buildMap_concat] at hreg
    rcases BuilderCall.lookup_exec_cases hreg with hbefore | ⟨t, opts, -, -, -, rfl⟩ |
      ⟨tOld, tCurrent, oldVersion, migrate, old, rfl, hok, hold, -, -, -, rfl⟩
    · obtain ⟨tOld, tCurrent, migrate, hsucceeded, hdecoder⟩ := ih hbefore hne hdeser
      exact ⟨tOld, tCurrent, migrate, hsucceeded.append _, hdecoder⟩
    · dsimp only [newRegistration] at hne hdeser
      split_ifs at hdeser
      · cases hdeser
      · rw [Finmap.lookup_insert_of_ne _ hne] at hdeser
        cases hdeser
    · dsimp only at hne hdeser
      by_cases heq : version = oldVersion
      · subst heq
        rw [Finmap.lookup_insert] at hdeser
        exact ⟨tOld, tCurrent, migrate, .last hok, (Option.some.inj hdeser).symm⟩
      · rw [Finmap.lookup_insert_of_ne _ heq] at hdeser
        obtain ⟨tOld', tCurrent', migrate', hsucceeded, hdecoder⟩ := ih hold hne hdeser
        exact ⟨tOld', tCurrent', migrate', hsucceeded.append _, hdecoder⟩

theorem BuilderCall.MetBy.mono {call : BuilderCall U} {reg reg' : Registration U}
    (h : call.MetBy reg) (hlater : reg.Later reg')
    (hkeeps : ∀ version deserFn, reg.deserializers.lookup version = some deserFn →
      reg'.deserializers.lookup version = some deserFn) : call.MetBy reg' := by
  cases call with
  | register t key calls => exact (hlater.matches_iff _).mpr h
  | migration tOld tCurrent key oldVersion migrate =>
    obtain ⟨htype, hmigrates⟩ := h
    exact ⟨hlater.typeId.trans htype, hkeeps _ _ hmigrates⟩

/-- A new registration has what it was made with. -/
theorem newRegistration_matches (t : U.TypeId) (key : Key) (opts : RegistrationOptions U t) :
    (newRegistration t key opts).Matches opts := by
  refine ⟨rfl, rfl, rfl, rfl, rfl, fun hlocal => ?_, rfl⟩
  dsimp only [newRegistration]
  rw [if_neg (ne_true_of_eq_false hlocal), Finmap.lookup_insert]

/-- A call that is accepted and unopposed takes effect at once. -/
theorem met_of_ok {m : RegistryMap U} {call : BuilderCall U} (hok : (call.exec m).2 = .ok ())
    (hfree : call.Unopposed m) :
    ∃ reg, (call.exec m).1.lookup call.key = some reg ∧ call.MetBy reg := by
  cases call with
  | register t key calls =>
    obtain ⟨hconsistent, htype⟩ := doRegisterWith_ok_iff.mp hok
    cases hreg : m.lookup key with
    | some reg =>
      have hmatches := hfree reg hreg (htype reg hreg) hconsistent
      obtain ⟨reg', hreg', hlater, -⟩ := lookup_exec m (.register t key calls) hreg
      exact ⟨reg', hreg', (hlater.matches_iff _).mpr hmatches⟩
    | none =>
      refine ⟨newRegistration t key (.configure calls), ?_, newRegistration_matches t key _⟩
      rw [BuilderCall.exec, doRegisterWith_of_consistent hconsistent, hreg, BuilderCall.key,
        Finmap.lookup_insert]
  | migration tOld tCurrent key oldVersion migrate =>
    obtain ⟨reg, hreg, htype, hlocal, hversion⟩ := doRegisterMigration_ok_iff.mp hok
    rw [BuilderCall.exec, doRegisterMigration_of_lookup migrate hreg htype hlocal hversion]
    exact ⟨_, Finmap.lookup_insert _, htype, Finmap.lookup_insert _⟩

/-- A registration that a call has brought is the one the call asked for. -/
theorem register_of_new {m : RegistryMap U} {call : BuilderCall U} {key : Key}
    {reg : Registration U} (hnone : m.lookup key = none)
    (hreg : (call.exec m).1.lookup key = some reg) :
    ∃ (t : U.TypeId) (opts : List (OptionCall U t)), call = .register t key opts ∧
      (call.exec m).2 = .ok () ∧ reg.Matches (RegistrationOptions.configure opts) := by
  rcases BuilderCall.lookup_exec_cases hreg with hbefore | ⟨t, opts, hcall, hok, -, rfl⟩ |
    ⟨tOld, tCurrent, oldVersion, migrate, old, -, -, hold, -, -, -, -⟩
  · rw [hnone] at hbefore
    cases hbefore
  · exact ⟨t, opts, hcall, hok, newRegistration_matches t key _⟩
  · rw [hnone] at hold
    cases hold

/-- **A registration is what one call has made it**, the first one for its key that was
accepted. -/
theorem lookup_installed (calls : List (BuilderCall U)) :
    ∀ {key : Key} {reg : Registration U}, (buildMap calls).lookup key = some reg →
      ∃ (pre : List (BuilderCall U)) (t : U.TypeId) (opts : List (OptionCall U t))
        (post : List (BuilderCall U)), calls = pre ++ .register t key opts :: post ∧
          (buildMap pre).lookup key = none ∧ (doRegisterWith t key opts (buildMap pre)).2 = .ok () ∧
          reg.Matches (RegistrationOptions.configure opts) := by
  induction calls using List.reverseRecOn with
  | nil =>
    intro key reg hreg
    cases hreg
  | append_singleton calls call ih =>
    intro key reg hreg
    rw [buildMap_concat] at hreg
    cases hbefore : (buildMap calls).lookup key with
    | none =>
      obtain ⟨t, opts, rfl, hok, hmatches⟩ := register_of_new hbefore hreg
      exact ⟨calls, t, opts, [], rfl, hbefore, hok, hmatches⟩
    | some reg' =>
      obtain ⟨pre, t, opts, post, rfl, hnone, hok, hmatches⟩ := ih hbefore
      obtain ⟨reg'', hreg'', hlater, -⟩ := lookup_exec _ call hbefore
      obtain rfl : reg = reg'' := Option.some.inj (hreg.symm.trans hreg'')
      exact ⟨pre, t, opts, post ++ [call], by simp, hnone, hok, (hlater.matches_iff _).mpr hmatches⟩

/-- Where no call is opposed, every accepted one is met by the final map. -/
theorem succeeded_met {calls : List (BuilderCall U)}
    (hfree : Along BuilderCall.step BuilderCall.Unopposed ∅ calls) {call : BuilderCall U}
    (h : Succeeded calls call) :
    ∃ reg, (buildMap calls).lookup call.key = some reg ∧ call.MetBy reg := by
  obtain ⟨pre, post, rfl, hok⟩ := h
  rw [along_append, run_step_eq_buildMap] at hfree
  obtain ⟨-, hcall, hpost⟩ := hfree
  rw [← run_step_eq_buildMap, run_append, run_step_eq_buildMap]
  have hstep : ∀ (m : RegistryMap U) (later : BuilderCall U),
      (∃ reg, m.lookup call.key = some reg ∧ call.MetBy reg) → later.Unopposed m →
      ∃ reg, (BuilderCall.step m later).1.lookup call.key = some reg ∧ call.MetBy reg := by
    rintro m later ⟨reg, hreg, hmet⟩ hlater
    obtain ⟨reg', hreg', hafter, hkeeps⟩ := lookup_exec m later hreg
    exact ⟨reg', hreg', hmet.mono hafter (hkeeps hlater)⟩
  exact run_along hstep post _ (met_of_ok hok hcall) hpost

/-- Everything that was accepted is found in the registry, and what conflicts with it is
refused. -/
structure TakesEffect (calls : List (BuilderCall U)) : Prop where
  frozen : ∃ frozen, tryInitialize (buildMap calls) none = (some frozen, .ok ()) ∧
    ∀ call, Succeeded calls call →
      ∃ reg, frozen.lookup call.key = some reg ∧ call.MetBy reg
  refused : ∀ pre call post, calls = pre ++ call :: post →
    ∀ earlier, Succeeded pre earlier → earlier.Conflicts call →
      ∃ e, (call.exec (buildMap pre)).2 = .error e

/-- **Registrations take effect and stay in effect** exactly when no call is opposed where it is
made. -/
theorem takesEffect_iff (calls : List (BuilderCall U)) :
    TakesEffect calls ↔ Along BuilderCall.step BuilderCall.Unopposed ∅ calls := by
  constructor
  · rintro ⟨⟨_, hfrozen, hmet⟩, -⟩
    obtain rfl : buildMap calls = _ := Option.some.inj (congrArg Prod.fst hfrozen)
    by_contra hnot
    obtain ⟨pre, call, post, rfl, -, hopposed⟩ := exists_first_break calls ∅ hnot
    rw [run_step_eq_buildMap] at hopposed
    apply hopposed
    have hsplit : pre ++ call :: post = pre ++ ([call] ++ post) := rfl
    cases call with
    | register t key opts =>
      intro reg hreg htype hconsistent
      have hok : (doRegisterWith t key opts (buildMap pre)).2 = .ok () := by
        rw [doRegisterWith_of_consistent hconsistent, hreg]
        simp [htype]
      obtain ⟨reg', hreg', hmatches⟩ := hmet (.register t key opts) ⟨pre, post, rfl, hok⟩
      obtain ⟨reg'', hreg'', hlater⟩ := lookup_buildMap_append (.register t key opts :: post) hreg
      obtain rfl : reg' = reg'' := Option.some.inj (hreg'.symm.trans hreg'')
      exact (hlater.matches_iff _).mp hmatches
    | migration tOld tCurrent key oldVersion migrate =>
      intro reg hreg htype hlocal hversion hmem
      obtain ⟨deserFn, hdeser⟩ := Finmap.mem_iff.mp hmem
      obtain ⟨tOld', tCurrent', migrate', hsucceeded, rfl⟩ :=
        succeeded_of_decoder pre hreg hversion hdeser
      have hok : (doRegisterMigration tOld tCurrent key oldVersion migrate (buildMap pre)).2 =
          .ok () :=
        doRegisterMigration_ok_iff.mpr ⟨reg, hreg, htype, hlocal, hversion⟩
      obtain ⟨reg', hreg', -, hearlier⟩ := hmet _ (hsucceeded.append (_ :: post))
      obtain ⟨reg'', hreg'', -, hthis⟩ := hmet (.migration tOld tCurrent key oldVersion migrate)
        ⟨pre, post, rfl, hok⟩
      obtain rfl : reg' = reg'' := Option.some.inj (hreg'.symm.trans hreg'')
      rw [Registration.Migrates] at hearlier hthis ⊢
      rw [hdeser, ← hearlier, hthis]
  · intro hfree
    refine ⟨⟨buildMap calls, rfl, fun call => succeeded_met hfree⟩, ?_⟩
    rintro pre call post rfl earlier hearlier ⟨hkey, hconflict⟩
    cases hreply : (call.exec (buildMap pre)).2 with
    | error e => exact ⟨e, rfl⟩
    | ok _ =>
      have hfree' : Along BuilderCall.step BuilderCall.Unopposed ∅ (pre ++ [call]) := by
        rw [along_append] at hfree ⊢
        exact ⟨hfree.1, hfree.2.1, trivial⟩
      obtain ⟨reg, hreg, hmet⟩ := succeeded_met hfree' (.last hreply)
      obtain ⟨reg', hreg', hmet'⟩ := succeeded_met hfree' (hearlier.append [call])
      rw [hkey] at hreg'
      obtain rfl : reg = reg' := Option.some.inj (hreg.symm.trans hreg')
      exact absurd ⟨hmet', hmet⟩ (hconflict reg)

/-- A key registered for numbers, and again as local-only. -/
def localOnlyAfterwards : List (BuilderCall primitiveTypes) :=
  [.register .u64 "k" [], .register .u64 "k" [.localOnly]]

/-- The second registration is accepted, and the key is not local-only. -/
theorem localOnly_ignored :
    Succeeded localOnlyAfterwards (.register .u64 "k" [.localOnly]) ∧
      ¬ TakesEffect localOnlyAfterwards := by
  have hsucceeded : Succeeded localOnlyAfterwards (.register .u64 "k" [.localOnly]) :=
    ⟨[.register .u64 "k" []], [], rfl, rfl⟩
  refine ⟨hsucceeded, ?_⟩
  rintro ⟨⟨_, hfrozen, hmet⟩, -⟩
  obtain rfl := Option.some.inj (congrArg Prod.fst hfrozen)
  have hlookup : (buildMap localOnlyAfterwards).lookup "k" =
      some (newRegistration PrimitiveType.u64 "k" .new) := rfl
  obtain ⟨reg, hreg, hmatches⟩ := hmet _ hsucceeded
  obtain rfl := Option.some.inj (hreg.symm.trans hlookup)
  cases hmatches.localOnly

end DContext
