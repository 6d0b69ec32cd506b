import Mathlib.Data.List.Nodup
import Tinkerfin.Lib.Dict

/-!
# Deltas of keyed lists

Two lists whose items carry distinct keys are compared through tables.  The delta holds the items
that are new or not the same any more and the keys that are gone.  Applied to the table of the old
list it finds an item of the new list under every key, up to what counts as the same, and it still
does if the items of the delta were rewritten on the way.
-/

namespace KeyedDelta

variable {κ α : Type*} [DecidableEq κ]

/-- Assign every item to its key, one after another. -/
def insertAll (keyOf : α → κ) (dict : Dict κ α) (items : List α) : Dict κ α :=
  items.foldl (fun dict item => dict.insert (keyOf item) item) dict

/-- The items by their keys. -/
def table (keyOf : α → κ) (items : List α) : Dict κ α := insertAll keyOf .empty items

/-- Whether a table holds a value that counts as the same. -/
def holds (same : α → α → Bool) (dict : Dict κ α) (key : κ) (item : α) : Bool :=
  (dict.get? key).any fun stored => same stored item

/-- New items that the old ones do not hold already. -/
def upserts (keyOf : α → κ) (same : α → α → Bool) (previous current : List α) : List α :=
  ((table keyOf current).entries.filter fun entry =>
    !holds same (table keyOf previous) entry.1 entry.2).map Prod.snd

/-- Old keys that are gone. -/
def removes (keyOf : α → κ) (previous current : List α) : List κ :=
  (table keyOf previous).keys.filter fun key => key ∉ (table keyOf current).keys

/-- Drop the removed keys and assign the upserted items. -/
def patched (keyOf : α → κ) (dict : Dict κ α) (upserted : List α) (removed : List κ) : Dict κ α :=
  insertAll keyOf (dict.filter fun key _ => key ∉ removed) upserted

section Tables

variable {keyOf : α → κ} {items : List α} {key : κ} {item : α}

theorem get?_insertAll_of_not_mem (dict : Dict κ α) (absent : key ∉ items.map keyOf) :
    (insertAll keyOf dict items).get? key = dict.get? key := by
  induction items generalizing dict with
  | nil => rfl
  | cons first items ih =>
    rw [List.map_cons, List.mem_cons, not_or] at absent
    rw [insertAll, List.foldl_cons]
    exact (ih _ absent.2).trans (Dict.get?_insert_of_ne _ _ absent.1)

theorem get?_insertAll_of_mem (dict : Dict κ α) (distinct : (items.map keyOf).Nodup)
    (member : item ∈ items) : (insertAll keyOf dict items).get? (keyOf item) = some item := by
  induction items generalizing dict with
  | nil => cases member
  | cons first items ih =>
    rw [List.map_cons, List.nodup_cons] at distinct
    rw [insertAll, List.foldl_cons]
    obtain rfl | member := List.mem_cons.mp member
    · exact (get?_insertAll_of_not_mem _ distinct.1).trans (Dict.get?_insert_self _ _ _)
    · exact ih _ distinct.2 member

theorem entries_insertAll (dict : Dict κ α) (distinct : (items.map keyOf).Nodup)
    (fresh : ∀ item ∈ items, keyOf item ∉ dict.keys) :
    (insertAll keyOf dict items).entries =
      dict.entries ++ items.map fun item => (keyOf item, item) := by
  induction items generalizing dict with
  | nil => rw [List.map_nil, List.append_nil, insertAll, List.foldl_nil]
  | cons first items ih =>
    rw [List.map_cons, List.nodup_cons] at distinct
    have added := Dict.entries_insert_of_not_mem first (fresh first List.mem_cons_self)
    have later : ∀ item ∈ items, keyOf item ∉ (dict.insert (keyOf first) first).keys := by
      intro item member old
      obtain same | old := Dict.mem_keys_insert.mp old
      · exact distinct.1 (same ▸ List.mem_map_of_mem member)
      · exact fresh item (.tail _ member) old
    rw [insertAll, List.foldl_cons]
    refine (ih _ distinct.2 later).trans ?_
    rw [added, List.append_assoc, List.singleton_append, List.map_cons]

theorem mem_keys_insertAll (dict : Dict κ α) :
    key ∈ (insertAll keyOf dict items).keys ↔ key ∈ dict.keys ∨ key ∈ items.map keyOf := by
  induction items generalizing dict with
  | nil => simp [insertAll]
  | cons first items ih =>
    rw [insertAll, List.foldl_cons]
    refine (ih _).trans ?_
    rw [Dict.mem_keys_insert, List.map_cons, List.mem_cons]
    tauto

theorem mem_keys_table : key ∈ (table keyOf items).keys ↔ key ∈ items.map keyOf := by
  rw [table, mem_keys_insertAll]
  simp [Dict.keys]

theorem distinct_of_size (size : (table keyOf items).size = items.length) :
    (items.map keyOf).Nodup := by
  have within : (table keyOf items).keys ⊆ items.map keyOf := fun _ => mem_keys_table.mp
  have perm := (List.subperm_of_subset (table keyOf items).nodup within).perm_of_length_le (by
    simpa [Dict.size] using size.ge)
  exact perm.nodup_iff.mp (table keyOf items).nodup

theorem entries_table (distinct : (items.map keyOf).Nodup) :
    (table keyOf items).entries = items.map fun item => (keyOf item, item) :=
  entries_insertAll .empty distinct fun _ _ => List.not_mem_nil

theorem keys_table (distinct : (items.map keyOf).Nodup) :
    (table keyOf items).keys = items.map keyOf := by
  rw [Dict.keys, entries_table distinct, List.map_map]
  rfl

theorem get?_table_of_mem (distinct : (items.map keyOf).Nodup) (member : item ∈ items) :
    (table keyOf items).get? (keyOf item) = some item :=
  get?_insertAll_of_mem .empty distinct member

theorem get?_table_of_not_mem (absent : key ∉ items.map keyOf) :
    (table keyOf items).get? key = none :=
  (get?_insertAll_of_not_mem .empty absent).trans (Dict.get?_empty key)

theorem mapM_get? {dict : Dict κ α} {relation : α → α → Prop}
    (found : ∀ item ∈ items, ∃ shown, dict.get? (keyOf item) = some shown ∧ relation item shown) :
    ∃ values, (items.map keyOf).mapM dict.get? = some values ∧
      List.Forall₂ relation items values := by
  induction items with
  | nil => exact ⟨[], rfl, .nil⟩
  | cons item items ih =>
    obtain ⟨shown, stored, related⟩ := found item List.mem_cons_self
    obtain ⟨values, rest, all⟩ := ih fun other member => found other (.tail _ member)
    exact ⟨shown :: values, by simp [stored, rest], .cons related all⟩

theorem perm_of_get? {left right : Dict κ α} (same : ∀ key, left.get? key = right.get? key) :
    left.entries.Perm right.entries := by
  refine (List.perm_ext_iff_of_nodup (List.Nodup.of_map _ left.nodup)
    (List.Nodup.of_map _ right.nodup)).mpr fun ⟨key, value⟩ => ?_
  rw [← Dict.get?_eq_some_iff, ← Dict.get?_eq_some_iff, same]

end Tables

section Deltas

variable {keyOf : α → κ} {same : α → α → Bool} {previous current : List α} {key : κ} {item : α}

theorem upserts_eq (distinct : (current.map keyOf).Nodup) :
    upserts keyOf same previous current =
      current.filter fun item => !holds same (table keyOf previous) (keyOf item) item := by
  rw [upserts, entries_table distinct, List.filter_map, List.map_map]
  exact List.map_id _

theorem upserts_sublist (distinct : (current.map keyOf).Nodup) :
    (upserts keyOf same previous current).Sublist current := by
  rw [upserts_eq distinct]
  exact List.filter_sublist

theorem mem_removes (before : (previous.map keyOf).Nodup) (after : (current.map keyOf).Nodup) :
    key ∈ removes keyOf previous current ↔ key ∈ previous.map keyOf ∧ key ∉ current.map keyOf := by
  simp only [removes, List.mem_filter, keys_table before, keys_table after, decide_eq_true_eq]

theorem removes_sublist (before : (previous.map keyOf).Nodup) :
    (removes keyOf previous current).Sublist (previous.map keyOf) := by
  rw [removes, keys_table before]
  exact List.filter_sublist

/-- An item of the new list is found as it is in the delta, or as the same item of the old list. -/
theorem get?_patched (same : α → α → Bool) (rewrite : α → α)
    (kept : ∀ item, keyOf (rewrite item) = keyOf item) (before : (previous.map keyOf).Nodup)
    (after : (current.map keyOf).Nodup) (member : item ∈ current) :
    ∃ shown, (patched keyOf (table keyOf previous)
        ((upserts keyOf same previous current).map rewrite)
        (removes keyOf previous current)).get? (keyOf item) = some shown ∧
      (shown = rewrite item ∨ keyOf shown = keyOf item ∧ same shown item) := by
  have keys : ((upserts keyOf same previous current).map rewrite).map keyOf =
      (upserts keyOf same previous current).map keyOf := by
    rw [List.map_map]
    exact List.map_congr_left fun item _ => kept item
  have distinct : (((upserts keyOf same previous current).map rewrite).map keyOf).Nodup := by
    rw [keys]
    exact after.sublist ((upserts_sublist after).map keyOf)
  by_cases held : holds same (table keyOf previous) (keyOf item) item = true
  · obtain ⟨stored, found, alike⟩ := (Option.any_eq_true _ _).mp held
    have listed : keyOf item ∈ previous.map keyOf := by
      by_contra absent
      cases (get?_table_of_not_mem absent).symm.trans found
    obtain ⟨old, was, named⟩ := List.mem_map.mp listed
    obtain rfl : old = stored := by
      rw [← named, get?_table_of_mem before was] at found
      exact Option.some.inj found
    have absent : keyOf item ∉ ((upserts keyOf same previous current).map rewrite).map keyOf := by
      rw [keys, upserts_eq after]
      intro again
      obtain ⟨other, inside, equal⟩ := List.mem_map.mp again
      obtain ⟨listed, changed⟩ := List.mem_filter.mp inside
      obtain rfl := List.inj_on_of_nodup_map after listed member equal
      simp [held] at changed
    have stays : keyOf item ∉ removes keyOf previous current := fun gone =>
      ((mem_removes before after).mp gone).2 (List.mem_map_of_mem member)
    refine ⟨old, ?_, .inr ⟨named, alike⟩⟩
    rw [patched, get?_insertAll_of_not_mem _ absent, Dict.get?_filter, found]
    simp [stays]
  · have changed : item ∈ upserts keyOf same previous current := by
      rw [upserts_eq after]
      exact List.mem_filter.mpr ⟨member, by simpa using held⟩
    refine ⟨rewrite item, ?_, .inl rfl⟩
    rw [← kept item]
    exact get?_insertAll_of_mem _ distinct (List.mem_map_of_mem changed)

theorem get?_patched_of_not_mem (before : (previous.map keyOf).Nodup)
    (after : (current.map keyOf).Nodup) (absent : key ∉ current.map keyOf) :
    (patched keyOf (table keyOf previous) (upserts keyOf same previous current)
      (removes keyOf previous current)).get? key = none := by
  have unchanged : key ∉ (upserts keyOf same previous current).map keyOf := fun inside =>
    absent (((upserts_sublist after).map keyOf).subset inside)
  rw [patched, get?_insertAll_of_not_mem _ unchanged, Dict.get?_filter]
  by_cases old : key ∈ previous.map keyOf
  · have gone : key ∈ removes keyOf previous current := (mem_removes before after).mpr ⟨old, absent⟩
    simp [gone]
  · rw [get?_table_of_not_mem old]
    rfl

/-- If only equal items count as the same, the patched table holds the new items. -/
theorem patched_perm [DecidableEq α] (before : (previous.map keyOf).Nodup)
    (after : (current.map keyOf).Nodup) :
    ((patched keyOf (table keyOf previous)
      (upserts keyOf (fun left right => left = right) previous current)
      (removes keyOf previous current)).entries.map Prod.snd).Perm current := by
  have found (key : κ) : (patched keyOf (table keyOf previous)
      (upserts keyOf (fun left right => left = right) previous current)
      (removes keyOf previous current)).get? key = (table keyOf current).get? key := by
    by_cases listed : key ∈ current.map keyOf
    · obtain ⟨item, member, rfl⟩ := List.mem_map.mp listed
      rw [get?_table_of_mem after member]
      obtain ⟨shown, stored, equal⟩ :=
        get?_patched (fun left right => left = right) id (fun _ => rfl) before after member
      rw [List.map_id] at stored
      obtain rfl | ⟨-, equal⟩ := equal
      · exact stored
      · rw [stored, of_decide_eq_true equal]
    · rw [get?_patched_of_not_mem before after listed, get?_table_of_not_mem listed]
  have values := (perm_of_get? found).map Prod.snd
  rwa [entries_table after, List.map_map, show Prod.snd ∘ (fun item => (keyOf item, item)) = id from
    rfl, List.map_id] at values

end Deltas

end KeyedDelta
