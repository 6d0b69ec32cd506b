import Tinkerfin.Agui.RootState

/-!
# Places of a patch

An operation of a state delta stands where the two states differ, and no operation stands inside of
the place of another one: nothing that is the same is sent again, and nothing is sent twice.
-/

namespace Tinkerfin.Agui

open Json.Pointer (render)

/-- The values differ at a place, and the change makes up for it. -/
def Needed (previous current : Json) (place : List String) : Json.Change → Prop
  | .remove => (previous.at? place).isSome ∧ current.at? place = none
  | .add value => previous.at? place = none ∧ current.at? place = some value
  | .replace value => current.at? place = some value ∧
      ∃ old, previous.at? place = some old ∧ jsonValuesEqual old value = false

/-- Neither operation stands inside of the place of the other. -/
def Apart (left right : JsonPatchOperation) : Prop :=
  ∀ first second, left.path = render first → right.path = render second →
    ¬first <+: second ∧ ¬second <+: first

/-- Operations at places below a pointer, where the values there differ. -/
structure Minimal (tokens : List String) (previous current : Json)
    (operations : List JsonPatchOperation) : Prop where
  needed : ∀ operation ∈ operations, ∃ place, operation.path = render (tokens ++ place) ∧
    Needed previous current place operation.change
  apart : operations.Pairwise Apart

theorem render_injective : Function.Injective render := fun first second same =>
  Option.some.inj <| by rw [← Json.Pointer.parse_render, same, Json.Pointer.parse_render]

section Objects

variable {tokens keys others : List String} {before after : Json} {key : String}
  {operations : List JsonPatchOperation} {previous current : List (String × Json)}

/-- Operations below the members with some keys. -/
structure OfMembers (tokens keys : List String) (before after : Json)
    (operations : List JsonPatchOperation) : Prop where
  needed : ∀ operation ∈ operations, ∃ key ∈ keys, ∃ place,
    operation.path = render (tokens ++ key :: place) ∧
      Needed before after (key :: place) operation.change
  apart : operations.Pairwise Apart

theorem apart_of_ne {left right : JsonPatchOperation} {other : String}
    {place rest : List String} (here : left.path = render (tokens ++ key :: place))
    (there : right.path = render (tokens ++ other :: rest)) (different : key ≠ other) :
    Apart left right := by
  intro first second isFirst isSecond
  obtain rfl := render_injective (here.symm.trans isFirst)
  obtain rfl := render_injective (there.symm.trans isSecond)
  simp [List.prefix_append_right_inj, different, Ne.symm different]

theorem OfMembers.append {more : List JsonPatchOperation}
    (first : OfMembers tokens keys before after operations)
    (second : OfMembers tokens others before after more) (disjoint : keys.Disjoint others) :
    OfMembers tokens (keys ++ others) before after (operations ++ more) where
  needed operation member := by
    rcases List.mem_append.mp member with left | right
    · obtain ⟨key, listed, rest⟩ := first.needed operation left
      exact ⟨key, List.mem_append_left _ listed, rest⟩
    · obtain ⟨key, listed, rest⟩ := second.needed operation right
      exact ⟨key, List.mem_append_right _ listed, rest⟩
  apart := by
    refine List.pairwise_append.mpr ⟨first.apart, second.apart, fun left isLeft right isRight => ?_⟩
    obtain ⟨key, listed, place, here, -⟩ := first.needed left isLeft
    obtain ⟨other, also, rest, there, -⟩ := second.needed right isRight
    refine apart_of_ne here there ?_
    rintro rfl
    exact disjoint listed also

theorem OfMembers.flatMap {α : Type} {items : List (String × α)}
    {write : String × α → List JsonPatchOperation} (distinct : (items.map Prod.fst).Nodup)
    (each : ∀ key value, (key, value) ∈ items →
      OfMembers tokens [key] before after (write (key, value))) :
    OfMembers tokens (items.map Prod.fst) before after (items.flatMap write) := by
  induction items with
  | nil => exact ⟨by simp, .nil⟩
  | cons item items ih =>
    obtain ⟨absent, distinct⟩ := List.nodup_cons.mp distinct
    exact (each item.1 item.2 List.mem_cons_self).append
      (ih distinct fun key value member => each key value (.tail _ member))
      (List.singleton_disjoint.mpr absent)

/-- One operation for a member that one of the objects lacks. -/
theorem ofMembers_single {change : Json.Change} (needed : Needed before after [key] change) :
    OfMembers tokens [key] before after
      [⟨change, render tokens ++ "/" ++ escapeJsonPointer key⟩] := by
  refine ⟨?_, List.pairwise_singleton _ _⟩
  simp only [List.mem_singleton, forall_eq, exists_eq_left, path_append]
  exact ⟨[], rfl, needed⟩

theorem objects_minimal (distinct : (previous.map Prod.fst).Nodup)
    (also : (current.map Prod.fst).Nodup)
    (nested : ∀ key before after, previous.lookup key = some before →
      current.lookup key = some after → Minimal (tokens ++ [key]) before after
        (jsonPatch before after (render (tokens ++ [key])))) :
    Minimal tokens (.object previous) (.object current)
      (jsonPatch (.object previous) (.object current) (render tokens)) := by
  unfold jsonPatch
  split
  · exact ⟨by simp, .nil⟩
  dsimp only
  rw [List.map_eq_flatMap, List.map_eq_flatMap]
  suffices every : ∃ keys, OfMembers tokens keys (.object previous) (.object current) _ by
    obtain ⟨keys, needed, apart⟩ := every
    refine ⟨fun operation member => ?_, apart⟩
    obtain ⟨key, -, place, rest⟩ := needed operation member
    exact ⟨key :: place, rest⟩
  refine ⟨_, ((OfMembers.flatMap (nodup_inKeyOrder (nodup_missingIn _ distinct)) ?_).append
    (OfMembers.flatMap (nodup_inKeyOrder (nodup_missingIn _ also)) ?_) ?_).append
    (OfMembers.flatMap (nodup_inKeyOrder (nodup_memberPatches distinct)) ?_) ?_⟩
  · intro key value listed
    obtain ⟨present, absent⟩ := mem_missingIn.mp (mem_inKeyOrder.mp listed)
    have here := Json.lookup_of_mem distinct present
    exact ofMembers_single (by simp [Needed, here, absent, Json.at?, Json.child?])
  · intro key value listed
    obtain ⟨present, absent⟩ := mem_missingIn.mp (mem_inKeyOrder.mp listed)
    have here := Json.lookup_of_mem also present
    exact ofMembers_single (by simp [Needed, here, absent, Json.at?, Json.child?])
  · intro key removed added
    have absent := (mem_keys_missingIn.mp removed).2
    exact absurd (mem_keys_missingIn.mp added).1 (by simp [absent])
  · intro key operations listed
    obtain ⟨before, after, present, found, rfl⟩ := mem_memberPatches.mp (mem_inKeyOrder.mp listed)
    have here := Json.lookup_of_mem distinct present
    rw [path_append]
    obtain ⟨needed, apart⟩ := nested key before after here found
    refine ⟨fun operation member => ⟨key, List.mem_singleton_self key, ?_⟩, apart⟩
    obtain ⟨place, path, needed⟩ := needed operation member
    refine ⟨place, by simpa using path, ?_⟩
    cases change : operation.change <;>
      simpa [Needed, Json.at?, Json.child?, here, found, change] using needed
  · intro key single shared
    obtain ⟨present, found⟩ := mem_keys_memberPatches.mp shared
    rcases List.mem_append.mp single with removed | added
    · simp [(mem_keys_missingIn.mp removed).2] at found
    · simp [(mem_keys_missingIn.mp added).2] at present

end Objects

theorem replaced_minimal {previous current : Json} (tokens : List String)
    (plain : ∀ members others, previous = .object members → current ≠ .object others) :
    Minimal tokens previous current (jsonPatch previous current (render tokens)) := by
  unfold jsonPatch
  split
  · exact ⟨by simp, .nil⟩
  · next differ =>
      split
      · exact absurd rfl (plain _ _ rfl)
      · refine ⟨?_, List.pairwise_singleton _ _⟩
        simp only [List.mem_singleton, forall_eq]
        exact ⟨[], by simp, rfl, previous, rfl, by simpa using differ⟩

theorem jsonPatch_minimal {previous current : Json} (distinct : previous.isDistinct = true)
    (also : current.isDistinct = true) (tokens : List String) :
    Minimal tokens previous current (jsonPatch previous current (render tokens)) := by
  induction previous using Json.inductionOn generalizing current tokens with
  | scalar value _ notObject =>
    exact replaced_minimal tokens fun members _ same => absurd same (notObject members)
  | array items ih => exact replaced_minimal tokens nofun
  | object members ih =>
    cases current with
    | object others =>
      obtain ⟨keys, values⟩ := Json.isDistinct_object.mp distinct
      obtain ⟨others, values'⟩ := Json.isDistinct_object.mp also
      exact objects_minimal keys others fun key before after isBefore isAfter =>
        ih key before (Json.mem_of_lookup isBefore) (values key before isBefore)
          (values' key after isAfter) _
    | _ => exact replaced_minimal tokens nofun

theorem run_synced (privateStateKeys : List String) (parts : List RootValuesPart) :
    ∃ sync, RootSync.run privateStateKeys {} parts = some sync ∧ sync.Synced := by
  induction parts using List.reverseRecOn with
  | nil => exact ⟨{}, rfl, trivial⟩
  | append_singleton parts part ih =>
    obtain ⟨sync, reached, synced⟩ := ih
    obtain ⟨after, next, held, -⟩ := next_tracks synced privateStateKeys part
    refine ⟨after, ?_, held⟩
    unfold RootSync.run at reached ⊢
    simp [List.foldlM_append, reached, next]

theorem emitted_delta {privateStateKeys : List String} {before recorded : Option Json}
    {part : RootValuesPart} {events : List RootEvent} {delta : List JsonPatchOperation}
    (emitted : emitValuesPart privateStateKeys before part = .ok (events, recorded))
    (sent : .stateDelta delta ∈ events) : ∃ previous, before = some previous ∧
      delta = jsonPatch previous (part.current privateStateKeys) "" ∧ delta ≠ [] := by
  unfold emitValuesPart at emitted
  cases prepared : part.preparedInterrupts with
  | error error => simp [prepared, Except.map] at emitted
  | ok interrupts =>
    simp only [prepared, Except.map, Except.ok.injEq] at emitted
    split at emitted
    · grind
    · split at emitted <;> grind

/-- In every run each state delta is sent against the state that was sent last.  It is not empty,
each of its operations stands where the public states differ and makes up for the difference there,
and none stands inside of the place of another one. -/
theorem root_deltas_minimal (privateStateKeys : List String) (parts : List RootValuesPart) :
    ∃ sync, RootSync.run privateStateKeys {} parts = some sync ∧
      ∀ (part : RootValuesPart) events recorded delta,
        emitValuesPart privateStateKeys sync.previousRootState part = .ok (events, recorded) →
          .stateDelta delta ∈ events → ∃ previous, sync.previousRootState = some previous ∧
            delta ≠ [] ∧ Minimal [] previous (part.current privateStateKeys) delta := by
  obtain ⟨sync, reached, synced⟩ := run_synced privateStateKeys parts
  refine ⟨sync, reached, fun part events recorded delta emitted sent => ?_⟩
  obtain ⟨previous, last, rfl, some⟩ := emitted_delta emitted sent
  have distinct : previous.isDistinct = true := by
    unfold RootSync.Synced at synced
    cases held : sync.client <;> simp [last, held] at synced
    exact synced.1
  exact ⟨previous, last, some,
    jsonPatch_minimal distinct (part.isDistinct_current privateStateKeys) []⟩

end Tinkerfin.Agui
