import DContext.Registry.Building

/-!
# Metadata

Other crates attach values of their own types to a registration and ask for them by type. What
they get is what the call that registered the key has attached last; nothing that is called later
changes it.

## Main definitions

* `Registry.withMetadata`, `Registry.keysWithMetadata`: the two ways to ask
* `lastMetadata m calls`: what a callback has attached last

## Main results

* `configure_metadata`: the options hold what was attached last
* `metadata_kept`: the two ways agree, and give what the registering call has attached
-/

namespace DContext

open Overlay

variable {U : TypeUniverse}

namespace Registry

/-- `with_metadata`: the entry of a type holds a value of that type, so the cast never fails. -/
def withMetadata {R : Type} (registry : Registry U) (key : Key) (m : U.TypeId) (f : U.El m → R) :
    Option R :=
  (registry.withRegistration key fun r => (r.metadata.lookup m).map f).join

/-- `keys_with_metadata`, with the registrations in their order of iteration. -/
def keysWithMetadata {R : Type} (order : List (Σ _ : Key, Registration U)) (m : U.TypeId)
    (f : Key → U.El m → R) : List R :=
  order.filterMap fun e => (e.2.metadata.lookup m).map (f e.1)

end Registry

/-- The value of type `m` that an option call attaches. -/
def OptionCall.attached {t : U.TypeId} (m : U.TypeId) : OptionCall U t → Option (U.El m)
  | .withMetadata m' value => if h : m' = m then some (h ▸ value) else none
  | _ => none

/-- What a callback has attached last. -/
def lastMetadata {t : U.TypeId} (m : U.TypeId) (calls : List (OptionCall U t)) :
    Option (U.El m) :=
  calls.reverse.findSome? (OptionCall.attached m)

theorem lastMetadata_concat {t : U.TypeId} (m : U.TypeId) (calls : List (OptionCall U t))
    (call : OptionCall U t) :
    lastMetadata m (calls ++ [call]) = (call.attached m).or (lastMetadata m calls) := by
  rw [lastMetadata, List.reverse_append, List.reverse_singleton, List.singleton_append,
    List.findSome?_cons]
  cases call.attached m <;> rfl

/-- The options hold what was attached last. -/
theorem configure_metadata {t : U.TypeId} (m : U.TypeId) (calls : List (OptionCall U t)) :
    (RegistrationOptions.configure calls).metadata.lookup m = lastMetadata m calls := by
  induction calls using List.reverseRecOn with
  | nil => rfl
  | append_singleton calls call ih =>
    have hconfigure : RegistrationOptions.configure (calls ++ [call]) =
        (RegistrationOptions.configure calls).apply call := by
      rw [RegistrationOptions.configure, List.foldl_append]
      rfl
    rw [hconfigure, lastMetadata_concat, ← ih]
    cases call with
    | withMetadata m' value =>
      by_cases hm : m' = m
      · subst hm
        simp [RegistrationOptions.apply, OptionCall.attached]
      · simp [RegistrationOptions.apply, OptionCall.attached, hm, Finmap.lookup_insert_of_ne,
          Ne.symm hm]
    | _ => rfl

theorem withMetadata_eq_some_iff {registry : Registry U} {key : Key} {m : U.TypeId}
    {x : U.El m} :
    registry.withMetadata key m id = some x ↔
      ∃ reg, registry.map.lookup key = some reg ∧ reg.metadata.lookup m = some x := by
  unfold Registry.withMetadata Registry.withRegistration
  cases registry.map.lookup key <;> simp

/-- The keys with metadata are some of the keys. -/
theorem keysWithMetadata_sublist (order : List (Σ _ : Key, Registration U)) (m : U.TypeId) :
    (Registry.keysWithMetadata order m fun key _ => key).Sublist (order.map Sigma.fst) := by
  unfold Registry.keysWithMetadata
  induction order with
  | nil => exact .slnil
  | cons e order ih =>
    rw [List.filterMap_cons, List.map_cons]
    cases e.2.metadata.lookup m with
    | none => exact ih.cons _
    | some x => exact ih.cons_cons _

/-- **Metadata is kept**: of every registry that calls can build, and in whatever order it is
iterated, both ways to ask give the same values, one for each key, and these are what the calls
that registered the keys have attached last. -/
theorem metadata_kept (calls : List (BuilderCall U)) (m : U.TypeId)
    {order : List (Σ _ : Key, Registration U)} (horder : Enumerates order (buildMap calls)) :
    (Registry.keysWithMetadata order m fun key _ => key).Nodup ∧
      ∀ key x, ((key, x) ∈ Registry.keysWithMetadata order m Prod.mk ↔
          (⟨buildMap calls⟩ : Registry U).withMetadata key m id = some x) ∧
        ((⟨buildMap calls⟩ : Registry U).withMetadata key m id = some x ↔
          ∃ (pre : List (BuilderCall U)) (t : U.TypeId) (opts : List (OptionCall U t))
            (post : List (BuilderCall U)), calls = pre ++ .register t key opts :: post ∧
            (buildMap pre).lookup key = none ∧
            (RegistrationOptions.configure opts).Consistent ∧ lastMetadata m opts = some x) := by
  refine ⟨?_, fun key x => ⟨?_, ?_⟩⟩
  · exact horder.nodup_keys.sublist (keysWithMetadata_sublist order m)
  · rw [withMetadata_eq_some_iff, Registry.keysWithMetadata, List.mem_filterMap]
    constructor
    · rintro ⟨⟨key', reg⟩, hmem, hx⟩
      obtain ⟨x', hx', heq⟩ := Option.map_eq_some_iff.mp hx
      obtain ⟨rfl, rfl⟩ := Prod.mk.inj heq
      exact ⟨reg, (horder.mem_iff key' reg).mp hmem, hx'⟩
    · rintro ⟨reg, hreg, hx⟩
      exact ⟨⟨key, reg⟩, (horder.mem_iff key reg).mpr hreg, by rw [hx]; rfl⟩
  · rw [withMetadata_eq_some_iff]
    constructor
    · rintro ⟨reg, hreg, hx⟩
      obtain ⟨pre, t, opts, post, hcalls, hnone, hok, hmatches⟩ := lookup_installed calls hreg
      refine ⟨pre, t, opts, post, hcalls, hnone, (doRegisterWith_ok_iff.mp hok).1, ?_⟩
      rw [← configure_metadata, ← hmatches.metadata, hx]
    · rintro ⟨pre, t, opts, post, rfl, hnone, hconsistent, hx⟩
      have hreg : (buildMap (pre ++ [.register t key opts])).lookup key =
          some (newRegistration t key (.configure opts)) := by
        rw [buildMap_concat]
        show (doRegisterWith t key opts (buildMap pre)).1.lookup key = _
        rw [doRegisterWith_of_consistent hconsistent, hnone]
        exact Finmap.lookup_insert _
      obtain ⟨reg, hreg', hlater⟩ := lookup_buildMap_append post hreg
      rw [List.append_assoc, List.singleton_append] at hreg'
      refine ⟨reg, hreg', ?_⟩
      rw [hlater.same]
      exact (configure_metadata m opts).trans hx

/-- A key with a text attached, and one without. -/
def taggedCalls : List (BuilderCall primitiveTypes) :=
  [.register .u64 "k" [.withMetadata .string "rid", .cached], .register .u64 "l" []]

theorem metadata_kept_tag :
    (⟨buildMap taggedCalls⟩ : Registry primitiveTypes).withMetadata "k" .string id =
      some "rid" := by
  have horder : Enumerates (buildMap taggedCalls).entries.toList (buildMap taggedCalls) :=
    Multiset.coe_toList _
  have hkept := metadata_kept taggedCalls .string horder
  exact (hkept.2 "k" "rid").2.mpr ⟨[], .u64, [.withMetadata .string "rid", .cached],
    [.register .u64 "l" []], rfl, rfl, nofun, rfl⟩

end DContext
