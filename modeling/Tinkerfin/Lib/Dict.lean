import Mathlib.Data.List.Basic
import Mathlib.Algebra.BigOperators.Group.List.Basic
import Mathlib.Algebra.Ring.Int.Defs
import Mathlib.Tactic.Common

/-!
# Insertion-ordered dictionaries

A dictionary is a list of entries with pairwise distinct keys.  Assigning to a present key keeps
its position and assigning to an absent key appends, so the entry order is the insertion order.
`weight` sums an integer weight over all entries, and the last section states how each update
changes the sum; incremental counters are compared with such a recount.
-/

/-- An insertion-ordered dictionary with pairwise distinct keys. -/
structure Dict (κ α : Type*) where
  /-- Key and value pairs, oldest key first. -/
  entries : List (κ × α)
  /-- No key occurs twice. -/
  nodup : (entries.map Prod.fst).Nodup

namespace Dict

variable {κ α β : Type*}

theorem ext_entries {left right : Dict κ α} (same : left.entries = right.entries) :
    left = right := by
  cases left
  cases right
  congr

instance [DecidableEq κ] [DecidableEq α] : DecidableEq (Dict κ α) := fun left right =>
  decidable_of_iff (left.entries = right.entries)
    ⟨ext_entries, fun same => same ▸ rfl⟩

/-- The dictionary without entries. -/
def empty : Dict κ α := ⟨[], List.nodup_nil⟩

/-- Keys in insertion order. -/
def keys (dict : Dict κ α) : List κ := dict.entries.map Prod.fst

/-- Number of entries. -/
def size (dict : Dict κ α) : Nat := dict.entries.length

/-- The oldest entry, if there is one. -/
def first? (dict : Dict κ α) : Option (κ × α) := dict.entries.head?

@[simp] theorem entries_empty : (empty : Dict κ α).entries = [] := rfl

theorem first?_eq_none_iff {dict : Dict κ α} : dict.first? = none ↔ dict.entries = [] := by
  simp [first?]

/-- Sum of an integer weight over all entries. -/
def weight (weigh : κ → α → Int) (dict : Dict κ α) : Int :=
  (dict.entries.map fun entry => weigh entry.1 entry.2).sum

@[simp] theorem weight_empty (weigh : κ → α → Int) : (empty : Dict κ α).weight weigh = 0 := rfl

theorem weight_nonneg (weigh : κ → α → Int) (dict : Dict κ α)
    (nonneg : ∀ key value, 0 ≤ weigh key value) : 0 ≤ dict.weight weigh := by
  unfold weight
  induction dict.entries with
  | nil => simp
  | cons entry entries ih =>
    simp only [List.map_cons, List.sum_cons]
    have := nonneg entry.1 entry.2
    omega

theorem weight_congr {left right : κ → α → Int} (dict : Dict κ α)
    (same : ∀ key value, (key, value) ∈ dict.entries → left key value = right key value) :
    dict.weight left = dict.weight right := by
  unfold weight
  congr 1
  apply List.map_congr_left
  intro entry member
  exact same entry.1 entry.2 member

/-! ## Lookup and update -/

variable [DecidableEq κ]

/-- The value stored under a key. -/
def get? (dict : Dict κ α) (key : κ) : Option α :=
  (dict.entries.find? fun entry => decide (entry.1 = key)).map Prod.snd

/-- Whether a key is present. -/
def contains (dict : Dict κ α) (key : κ) : Bool := (dict.get? key).isSome

/-- Replace the value stored under a present key and leave every other entry alone. -/
def replaceEntries (key : κ) (value : α) (entries : List (κ × α)) : List (κ × α) :=
  entries.map fun entry => if entry.1 = key then (key, value) else entry

theorem map_fst_replaceEntries (key : κ) (value : α) (entries : List (κ × α)) :
    (replaceEntries key value entries).map Prod.fst = entries.map Prod.fst := by
  rw [replaceEntries, List.map_map]
  apply List.map_congr_left
  intro entry _
  by_cases same : entry.1 = key <;> simp [same]

theorem get?_eq_none_iff {dict : Dict κ α} {key : κ} :
    dict.get? key = none ↔ key ∉ dict.entries.map Prod.fst := by
  simp only [get?, Option.map_eq_none_iff, List.find?_eq_none, decide_eq_true_eq, List.mem_map,
    not_exists, not_and]

theorem get?_eq_some_iff {dict : Dict κ α} {key : κ} {value : α} :
    dict.get? key = some value ↔ (key, value) ∈ dict.entries := by
  obtain ⟨entries, nodup⟩ := dict
  simp only [get?]
  induction entries with
  | nil => simp
  | cons entry entries ih =>
    have tailNodup := (List.nodup_cons.mp nodup).2
    have fresh := (List.nodup_cons.mp nodup).1
    by_cases same : entry.1 = key
    · have absent : (key, value) ∉ entries := fun member =>
        fresh (same ▸ List.mem_map_of_mem (f := Prod.fst) member)
      simp only [List.find?_cons_of_pos, same, decide_true, Option.map_some, Option.some.injEq,
        List.mem_cons, absent, or_false]
      constructor
      · rintro rfl
        exact Prod.ext same.symm rfl
      · rintro rfl
        rfl
    · have different : (key, value) ≠ entry := fun equal => same (by rw [← equal])
      simp only [same, decide_false, Bool.false_eq_true, not_false_eq_true,
        List.find?_cons_of_neg, List.mem_cons, different, false_or]
      exact ih tailNodup

/-- The entries of one key are the value that is stored under it. -/
theorem filter_entries_key (dict : Dict κ α) (key : κ) :
    (dict.entries.filter fun entry => entry.1 = key) =
      (dict.get? key).toList.map fun value => (key, value) := by
  obtain ⟨entries, nodup⟩ := dict
  simp only [get?]
  induction entries with
  | nil => rfl
  | cons entry entries ih =>
    obtain ⟨fresh, tailNodup⟩ := List.nodup_cons.mp nodup
    by_cases same : entry.1 = key
    · have none : (entries.filter fun entry => entry.1 = key) = [] := by
        refine List.filter_eq_nil_iff.mpr fun other member equal => fresh ?_
        exact same.trans (of_decide_eq_true equal).symm ▸ List.mem_map_of_mem member
      rw [List.filter_cons_of_pos (by simpa using same), none,
        List.find?_cons_of_pos (by simpa using same)]
      exact congrArg (fun key => [(key, entry.2)]) same
    · rw [List.filter_cons_of_neg (by simpa using same),
        List.find?_cons_of_neg (by simpa using same)]
      exact ih tailNodup

theorem filterMap_entries_key (dict : Dict κ α) (key : κ) {select : κ × α → Option β}
    (only : ∀ entry ∈ dict.entries, entry.1 ≠ key → select entry = none) :
    dict.entries.filterMap select =
      (dict.get? key).toList.filterMap fun value => select (key, value) := by
  have selected : dict.entries.filterMap select =
      (dict.entries.filter fun entry => entry.1 = key).filterMap select := by
    rw [List.filterMap_filter]
    refine List.filterMap_congr fun entry member => ?_
    by_cases same : entry.1 = key
    · simp [same]
    · simp [same, only entry member same]
  rw [selected, filter_entries_key, List.filterMap_map]
  rfl

/-- Assign a value to a key: in place when the key is present, at the end otherwise. -/
def insert (dict : Dict κ α) (key : κ) (value : α) : Dict κ α :=
  if present : key ∈ dict.entries.map Prod.fst then
    ⟨replaceEntries key value dict.entries, by
      rw [map_fst_replaceEntries]
      exact dict.nodup⟩
  else
    ⟨dict.entries ++ [(key, value)], by
      rw [List.map_append, List.nodup_append]
      refine ⟨dict.nodup, by simp, ?_⟩
      intro left leftMem right rightMem same
      simp only [List.map_cons, List.map_nil, List.mem_singleton] at rightMem
      exact present (rightMem ▸ same ▸ leftMem)⟩

/-- Remove a key. -/
def erase (dict : Dict κ α) (key : κ) : Dict κ α :=
  ⟨dict.entries.filter fun entry => decide (entry.1 ≠ key), by
    exact dict.nodup.sublist ((List.filter_sublist).map Prod.fst)⟩

theorem mem_insert_entries {dict : Dict κ α} {key other : κ} {value stored : α} :
    (other, stored) ∈ (dict.insert key value).entries ↔
      (other = key ∧ stored = value) ∨ (other ≠ key ∧ (other, stored) ∈ dict.entries) := by
  unfold insert
  split
  · next present =>
      simp only [replaceEntries, List.mem_map]
      constructor
      · rintro ⟨entry, member, equal⟩
        by_cases same : entry.1 = key
        · simp only [same, if_true, Prod.mk.injEq] at equal
          exact .inl ⟨equal.1.symm, equal.2.symm⟩
        · simp only [same, if_false] at equal
          exact .inr ⟨fun otherKey => same (by rw [equal, otherKey]), equal ▸ member⟩
      · rintro (⟨rfl, rfl⟩ | ⟨different, member⟩)
        · obtain ⟨entry, member, same⟩ := List.mem_map.mp present
          exact ⟨entry, member, by simp [same]⟩
        · exact ⟨_, member, by simp [different]⟩
  · next absent =>
      have distinct : (other, stored) ∈ dict.entries → other ≠ key := fun member same =>
        absent (same ▸ List.mem_map_of_mem (f := Prod.fst) member)
      simp only [List.mem_append, List.mem_singleton, Prod.mk.injEq]
      constructor
      · rintro (member | equal)
        · exact .inr ⟨distinct member, member⟩
        · exact .inl equal
      · rintro (equal | ⟨_, member⟩)
        · exact .inr equal
        · exact .inl member

theorem mem_erase_entries {dict : Dict κ α} {key other : κ} {stored : α} :
    (other, stored) ∈ (dict.erase key).entries ↔
      other ≠ key ∧ (other, stored) ∈ dict.entries := by
  simp [erase, List.mem_filter, and_comm]

@[simp] theorem get?_empty (key : κ) : (empty : Dict κ α).get? key = none := rfl

theorem get?_insert (dict : Dict κ α) (key other : κ) (value : α) :
    (dict.insert key value).get? other = if other = key then some value else dict.get? other := by
  apply Option.ext
  intro stored
  rw [get?_eq_some_iff, mem_insert_entries]
  split
  · next same => simp [same, eq_comm]
  · next different => simp [different, get?_eq_some_iff]

@[simp] theorem get?_insert_self (dict : Dict κ α) (key : κ) (value : α) :
    (dict.insert key value).get? key = some value := by
  simp [get?_insert]

theorem get?_insert_of_ne (dict : Dict κ α) {key other : κ} (value : α) (different : other ≠ key) :
    (dict.insert key value).get? other = dict.get? other := by
  simp [get?_insert, different]

theorem get?_erase (dict : Dict κ α) (key other : κ) :
    (dict.erase key).get? other = if other = key then none else dict.get? other := by
  apply Option.ext
  intro stored
  rw [get?_eq_some_iff, mem_erase_entries]
  split
  · next same => simp [same]
  · next different => simp [different, get?_eq_some_iff]

@[simp] theorem get?_erase_self (dict : Dict κ α) (key : κ) :
    (dict.erase key).get? key = none := by
  simp [get?_erase]

theorem get?_erase_of_ne (dict : Dict κ α) {key other : κ} (different : other ≠ key) :
    (dict.erase key).get? other = dict.get? other := by
  simp [get?_erase, different]

theorem insert_of_get? {dict : Dict κ α} {key : κ} {value : α}
    (stored : dict.get? key = some value) : dict.insert key value = dict := by
  have member := get?_eq_some_iff.mp stored
  have present : key ∈ dict.entries.map Prod.fst := List.mem_map_of_mem (f := Prod.fst) member
  apply ext_entries
  simp only [insert, present, dif_pos, replaceEntries]
  conv_rhs => rw [← List.map_id dict.entries]
  apply List.map_congr_left
  intro entry entryMember
  split
  · next same =>
      have found : dict.get? key = some entry.2 := get?_eq_some_iff.mpr (same ▸ entryMember)
      obtain rfl := Option.some.inj (stored.symm.trans found)
      exact Prod.ext same.symm rfl
  · rfl

theorem contains_eq_true_iff {dict : Dict κ α} {key : κ} :
    dict.contains key = true ↔ ∃ value, dict.get? key = some value := by
  simp [contains, Option.isSome_iff_exists]

theorem get?_first {dict : Dict κ α} {key : κ} {value : α}
    (first : dict.first? = some (key, value)) : dict.get? key = some value := by
  rw [get?_eq_some_iff]
  exact List.mem_of_mem_head? first

theorem mem_keys_iff {dict : Dict κ α} {key : κ} :
    key ∈ dict.keys ↔ (dict.get? key).isSome := by
  rw [← not_iff_not, Bool.not_eq_true, Option.isSome_eq_false_iff, Option.isNone_iff_eq_none,
    get?_eq_none_iff, keys]

theorem mem_keys_of_get? {dict : Dict κ α} {key : κ} {value : α}
    (found : dict.get? key = some value) : key ∈ dict.keys :=
  mem_keys_iff.mpr (by rw [found]; rfl)

theorem mem_keys_insert {dict : Dict κ α} {key other : κ} {value : α} :
    other ∈ (dict.insert key value).keys ↔ other = key ∨ other ∈ dict.keys := by
  rw [mem_keys_iff, mem_keys_iff, get?_insert]
  split
  · next same => simp [same]
  · next different => simp [different]

theorem size_insert (dict : Dict κ α) (key : κ) (value : α) :
    (dict.insert key value).size = if (dict.get? key).isSome then dict.size else dict.size + 1 := by
  unfold insert
  split
  · next present =>
      have stored := mem_keys_iff.mp present
      simp [size, replaceEntries, stored]
  · next absent =>
      simp [size, get?_eq_none_iff.mpr absent]

/-- The last of two assignments to one key stays. -/
@[simp] theorem insert_insert (dict : Dict κ α) (key : κ) (first second : α) :
    (dict.insert key first).insert key second = dict.insert key second := by
  have stored : key ∈ (dict.insert key first).entries.map Prod.fst :=
    mem_keys_insert.mpr (.inl rfl)
  apply ext_entries
  by_cases present : key ∈ dict.entries.map Prod.fst
  · simp only [insert, present, map_fst_replaceEntries, dif_pos]
    simp only [replaceEntries, List.map_map]
    apply List.map_congr_left
    intro entry _
    by_cases same : entry.1 = key <;> simp [same]
  · have kept : replaceEntries key second dict.entries = dict.entries := by
      refine (List.map_congr_left ?_).trans (List.map_id _)
      intro entry member
      have different : entry.1 ≠ key := fun same => present (same ▸ List.mem_map_of_mem member)
      simp [different]
    simp only [insert, present, dif_neg, not_false_eq_true] at stored ⊢
    rw [dif_pos stored]
    simp only [replaceEntries, List.map_append] at kept ⊢
    rw [kept]
    simp

theorem size_erase_le (dict : Dict κ α) (key : κ) : (dict.erase key).size ≤ dict.size :=
  List.length_filter_le _ _

omit [DecidableEq κ] in
/-- Keep the entries that meet a condition. -/
def filter (dict : Dict κ α) (keep : κ → α → Bool) : Dict κ α :=
  ⟨dict.entries.filter fun entry => keep entry.1 entry.2,
    dict.nodup.sublist (List.filter_sublist.map Prod.fst)⟩

theorem get?_filter (dict : Dict κ α) (keep : κ → α → Bool) (key : κ) :
    (dict.filter keep).get? key = (dict.get? key).filter (keep key) := by
  apply Option.ext
  intro stored
  rw [get?_eq_some_iff, Option.filter_eq_some_iff, get?_eq_some_iff]
  simp [filter, List.mem_filter]

omit [DecidableEq κ] in
/-- Update every value in place. -/
def mapValues (dict : Dict κ α) (f : κ → α → β) : Dict κ β :=
  ⟨dict.entries.map fun entry => (entry.1, f entry.1 entry.2), by
    simpa [List.map_map, Function.comp_def] using dict.nodup⟩

theorem get?_mapValues (dict : Dict κ α) (f : κ → α → β) (key : κ) :
    (dict.mapValues f).get? key = (dict.get? key).map (f key) := by
  apply Option.ext
  intro stored
  rw [get?_eq_some_iff, Option.map_eq_some_iff]
  simp only [mapValues, List.mem_map, get?_eq_some_iff]
  constructor
  · rintro ⟨entry, member, same⟩
    obtain ⟨rfl, rfl⟩ := Prod.mk.inj same
    exact ⟨entry.2, member, rfl⟩
  · rintro ⟨value, member, rfl⟩
    exact ⟨_, member, rfl⟩

omit [DecidableEq κ] in
@[simp] theorem size_mapValues (dict : Dict κ α) (f : κ → α → β) :
    (dict.mapValues f).size = dict.size := List.length_map _

omit [DecidableEq κ] in
@[simp] theorem keys_mapValues (dict : Dict κ α) (f : κ → α → β) :
    (dict.mapValues f).keys = dict.keys := by
  simp [keys, mapValues, Function.comp_def]

theorem entries_insert_of_mem {dict : Dict κ α} {key : κ} (value : α) (present : key ∈ dict.keys) :
    (dict.insert key value).entries = replaceEntries key value dict.entries := by
  have stored : key ∈ dict.entries.map Prod.fst := present
  rw [insert, dif_pos stored]

theorem entries_insert_of_not_mem {dict : Dict κ α} {key : κ} (value : α)
    (absent : key ∉ dict.keys) :
    (dict.insert key value).entries = dict.entries ++ [(key, value)] := by
  have stored : key ∉ dict.entries.map Prod.fst := absent
  rw [insert, dif_neg stored]

theorem keys_insert_of_mem {dict : Dict κ α} {key : κ} (value : α) (present : key ∈ dict.keys) :
    (dict.insert key value).keys = dict.keys := by
  rw [keys, entries_insert_of_mem value present, map_fst_replaceEntries]
  rfl

/-! ## Weight of an updated dictionary -/

/-- Weight of the value stored under a key, zero when there is none. -/
def weightAt (weigh : κ → α → Int) (dict : Dict κ α) (key : κ) : Int :=
  (dict.get? key).elim 0 (weigh key)

theorem weightAt_of_get? {weigh : κ → α → Int} {dict : Dict κ α} {key : κ} {value : α}
    (stored : dict.get? key = some value) : dict.weightAt weigh key = weigh key value := by
  simp [weightAt, stored]

theorem weightAt_of_absent {weigh : κ → α → Int} {dict : Dict κ α} {key : κ}
    (absent : dict.get? key = none) : dict.weightAt weigh key = 0 := by
  simp [weightAt, absent]

theorem weight_erase (weigh : κ → α → Int) (dict : Dict κ α) (key : κ) :
    (dict.erase key).weight weigh = dict.weight weigh - dict.weightAt weigh key := by
  obtain ⟨entries, nodup⟩ := dict
  simp only [weight, weightAt, erase, get?]
  induction entries with
  | nil => simp
  | cons entry entries ih =>
    have fresh := (List.nodup_cons.mp nodup).1
    have tailNodup := (List.nodup_cons.mp nodup).2
    by_cases same : entry.1 = key
    · have untouched : entries.filter (fun entry => decide (entry.1 ≠ key)) = entries := by
        rw [List.filter_eq_self]
        intro other member
        have : other.1 ≠ entry.1 := fun equal =>
          fresh (equal ▸ List.mem_map_of_mem (f := Prod.fst) member)
        simpa [same] using this
      rw [List.filter_cons_of_neg (by simp [same]), untouched]
      simp [same]
    · have tail := ih tailNodup
      rw [List.filter_cons_of_pos (by simp [same])]
      simp only [List.map_cons, List.sum_cons, same, decide_false, Bool.false_eq_true,
        not_false_eq_true, List.find?_cons_of_neg]
      omega

theorem weight_insert (weigh : κ → α → Int) (dict : Dict κ α) (key : κ) (value : α) :
    (dict.insert key value).weight weigh =
      dict.weight weigh - dict.weightAt weigh key + weigh key value := by
  unfold insert
  split
  · next present =>
      obtain ⟨entries, nodup⟩ := dict
      simp only [weight, weightAt, get?, replaceEntries, List.map_map] at present ⊢
      induction entries with
      | nil => simp at present
      | cons entry entries ih =>
        have fresh := (List.nodup_cons.mp nodup).1
        have tailNodup := (List.nodup_cons.mp nodup).2
        by_cases same : entry.1 = key
        · have untouched : entries.map ((fun entry => weigh entry.1 entry.2) ∘
              fun entry => if entry.1 = key then (key, value) else entry) =
              entries.map fun entry => weigh entry.1 entry.2 := by
            apply List.map_congr_left
            intro other member
            have : other.1 ≠ key := fun equal =>
              fresh (same ▸ equal ▸ List.mem_map_of_mem (f := Prod.fst) member)
            simp [this]
          simp only [List.map_cons, List.sum_cons, untouched, Function.comp_apply, same, if_true,
            decide_true, List.find?_cons_of_pos, Option.map_some, Option.elim_some]
          omega
        · have tailPresent : key ∈ entries.map Prod.fst := by
            simpa [Ne.symm same] using present
          have tail := ih tailNodup tailPresent
          simp only [List.map_cons, List.sum_cons, Function.comp_apply, same, if_false,
            decide_false, Bool.false_eq_true, not_false_eq_true,
            List.find?_cons_of_neg] at tail ⊢
          omega
  · next absent =>
      rw [weightAt_of_absent (get?_eq_none_iff.mpr absent)]
      simp [weight]

theorem weight_le_of_get? (weigh : κ → α → Int) (dict : Dict κ α) {key : κ} {value : α}
    (stored : dict.get? key = some value) (nonneg : ∀ key value, 0 ≤ weigh key value) :
    weigh key value ≤ dict.weight weigh := by
  have remaining := weight_nonneg weigh (dict.erase key) nonneg
  rw [weight_erase, weightAt_of_get? stored] at remaining
  omega

end Dict
