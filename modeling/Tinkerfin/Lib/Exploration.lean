import Mathlib.Data.List.Nodup
import Mathlib.Data.List.Perm.Subperm
import Mathlib.Data.Set.Lattice
import Tinkerfin.Lib.Dict

/-!
# Explorations

A search over many candidates may stop with an answer, and covers a set of results until then.  A
notion of covering that respects idle searches, counted steps and one search behind another respects
the loops and the selections built from them.

A search for a bounded number of distinct results ends with a sample of them: distinct results, and
all of them when there are fewer than the bound.
-/

/-! ## Searches that may stop -/

section Covering

variable {m : Type → Type} [Monad m] {α β κ ρ : Type}

/-- The first answer over the items of a list, each looked at with the items behind it. -/
def List.findSomeTailM? (body : α → List α → m (Option β)) : List α → m (Option β)
  | [] => pure none
  | item :: rest => do
    match ← body item rest with
    | some answer => pure (some answer)
    | none => findSomeTailM? body rest

/-- Offer every in-order selection of candidates, one for each key.  Each call and each candidate
looked at is a counted step. -/
def orderedSelections (step : m PUnit) (accepts : κ → α → Bool)
    (consume : List α → m (Option β)) : List κ → List α → List α → m (Option β)
  | [], _, selected => do
    step
    consume selected
  | key :: keys, candidates, selected => do
    step
    candidates.findSomeTailM? fun candidate later => do
      step
      if accepts key candidate then
        orderedSelections step accepts consume keys later (selected ++ [candidate])
      else
        pure none

/-- A selection takes candidates in their order, one accepted for each key. -/
def Selects (accepts : κ → α → Bool) (keys : List κ) (candidates selection : List α) : Prop :=
  selection.Sublist candidates ∧
    List.Forall₂ (fun key item => accepts key item = true) keys selection

/-- A notion of covering results that composes along the text of a search. -/
structure Exploration (step : m PUnit) (covers : Set ρ → m (Option β) → Prop) : Prop where
  idle : covers ∅ (pure none)
  counted : ∀ {results search}, covers results search → covers results (step >>= fun _ => search)
  andThen : ∀ {left right first second}, covers left first → covers right second →
    covers (left ∪ right) (first >>= fun answer? =>
      match answer? with
      | some answer => pure (some answer)
      | none => second)

variable {accepts : κ → α → Bool} {key : κ} {keys : List κ} {item : α}
  {items candidates selection : List α}

@[simp] theorem selects_nil : Selects accepts [] candidates selection ↔ selection = [] := by
  constructor
  · rintro ⟨-, pairs⟩
    cases pairs
    rfl
  · rintro rfl
    exact ⟨List.nil_sublist _, .nil⟩

@[simp] theorem not_selects_cons_nil : ¬Selects accepts (key :: keys) [] selection := by
  rintro ⟨within, pairs⟩
  obtain rfl := List.sublist_nil.mp within
  cases pairs

theorem selects_cons_cons : Selects accepts (key :: keys) (item :: items) selection ↔
    (accepts key item = true ∧ ∃ rest, Selects accepts keys items rest ∧ selection = item :: rest) ∨
      Selects accepts (key :: keys) items selection := by
  constructor
  · rintro ⟨within, pairs⟩
    cases within with
    | cons _ within => exact .inr ⟨within, pairs⟩
    | cons_cons _ within =>
      cases pairs with
      | cons accepted pairs => exact .inl ⟨accepted, _, ⟨within, pairs⟩, rfl⟩
  · rintro (⟨accepted, rest, ⟨within, pairs⟩, rfl⟩ | ⟨within, pairs⟩)
    · exact ⟨within.cons_cons item, .cons accepted pairs⟩
    · exact ⟨within.cons item, pairs⟩

namespace Exploration

variable {step : m PUnit} {covers : Set ρ → m (Option β) → Prop}
  (exploration : Exploration step covers)

include exploration

theorem loop {body : α → m (Option β)} {results : α → Set ρ}
    (round : ∀ item ∈ items, covers (results item) (body item)) :
    covers {result | ∃ item ∈ items, result ∈ results item} (items.findSomeM? body) := by
  induction items with
  | nil => simpa using exploration.idle
  | cons item items ih =>
    have here := round item List.mem_cons_self
    have there := ih fun other member => round other (.tail _ member)
    convert exploration.andThen here there using 1
    · ext result
      simp
    · rw [List.findSomeM?_cons]
      rfl

/-- The selections cover what the consumer covers for each of them. -/
theorem selections {consume : List α → m (Option β)} (results : List α → Set ρ)
    (accepts : κ → α → Bool) (keys : List κ) (candidates selected : List α)
    (offered : ∀ selection, Selects accepts keys candidates selection →
      covers (results (selected ++ selection)) (consume (selected ++ selection))) :
    covers {result | ∃ selection, Selects accepts keys candidates selection ∧
        result ∈ results (selected ++ selection)}
      (orderedSelections step accepts consume keys candidates selected) := by
  induction keys generalizing candidates selected with
  | nil =>
    have here := offered [] (by simp)
    simpa [orderedSelections] using exploration.counted here
  | cons key keys ih =>
    refine exploration.counted ?_
    induction candidates with
    | nil => simpa [List.findSomeTailM?] using exploration.idle
    | cons item items inner =>
      have passing := inner fun selection selects =>
        offered selection (selects_cons_cons.mpr (.inr selects))
      by_cases accepted : accepts key item = true
      · have taking := @ih items (selected ++ [item]) fun rest selects => by
          simpa using offered (item :: rest)
            (selects_cons_cons.mpr (.inl ⟨accepted, rest, selects, rfl⟩))
        convert exploration.andThen (exploration.counted taking) passing using 1
        · ext result
          simp [selects_cons_cons, accepted, or_and_right, exists_or]
        · simp [List.findSomeTailM?, accepted]
      · convert exploration.andThen (exploration.counted exploration.idle) passing using 1
        · ext result
          simp [selects_cons_cons, accepted]
        · simp [List.findSomeTailM?, accepted]

end Exploration

end Covering

/-! ## Distinct results up to a bound -/

section Sampling

variable {ρ τ : Type}

/-- Distinct results of a set: all of them, or as many as the bound asks for. -/
structure Sample (bound : Nat) (found : List ρ) (results : Set ρ) : Prop where
  nodup : found.Nodup
  sound : ∀ result ∈ found, result ∈ results
  complete : found.length < bound → ∀ result ∈ results, result ∈ found

/-- Keep a result unless it was found before. -/
def keepNew [DecidableEq ρ] (found : List ρ) (result : ρ) : List ρ :=
  if result ∈ found then found else found ++ [result]

/-- Keep new results until there are as many as the bound, and say whether there are. -/
def keepUpTo [DecidableEq ρ] (bound : Nat) : List ρ → List ρ → List ρ × Bool
  | found, [] => (found, false)
  | found, result :: results =>
    if result ∈ found then
      keepUpTo bound found results
    else if bound ≤ (found ++ [result]).length then
      (found ++ [result], true)
    else
      keepUpTo bound (found ++ [result]) results

namespace Sample

variable {bound : Nat} {found part : List ρ} {results more : Set ρ}

theorem empty : Sample bound ([] : List ρ) ∅ where
  nodup := List.nodup_nil
  sound _ member := (List.not_mem_nil member).elim
  complete _ _ member := member.elim

theorem singleton (result : ρ) : Sample bound [result] {result} where
  nodup := List.nodup_singleton result
  sound _ member := List.mem_singleton.mp member
  complete _ _ member := List.mem_singleton.mpr member

theorem of_full (sample : Sample bound found results) (full : bound ≤ found.length)
    (within : results ⊆ more) : Sample bound found more where
  nodup := sample.nodup
  sound result member := within (sample.sound result member)
  complete short := absurd short (Nat.not_lt.mpr full)

theorem map {f : ρ → τ} (sample : Sample bound found results) (injective : f.Injective) :
    Sample bound (found.map f) (f '' results) where
  nodup := sample.nodup.map injective
  sound := by
    rintro _ member
    obtain ⟨result, found, rfl⟩ := List.mem_map.mp member
    exact ⟨result, sample.sound result found, rfl⟩
  complete short := by
    rintro _ ⟨result, member, rfl⟩
    exact List.mem_map_of_mem (sample.complete (by simpa using short) result member)

theorem widen (sample : Sample bound found (results ∪ {result | result ∈ part}))
    (sampled : Sample bound part more) : Sample bound found (results ∪ more) where
  nodup := sample.nodup
  sound result member := by
    obtain old | new := sample.sound result member
    · exact .inl old
    · exact .inr (sampled.sound result new)
  complete short result member := by
    obtain old | new := member
    · exact sample.complete short result (.inl old)
    · have held : part ⊆ found := fun other inside => sample.complete short other (.inr inside)
      have fewer : part.length ≤ found.length :=
        (List.subperm_of_subset sampled.nodup held).length_le
      exact held (sampled.complete (by omega) result new)

theorem eq_nil_iff (sample : Sample (bound + 1) found results) : found = [] ↔ results = ∅ := by
  constructor
  · rintro rfl
    exact Set.eq_empty_of_forall_notMem fun result member =>
      List.not_mem_nil (sample.complete (Nat.succ_pos bound) result member)
  · rintro rfl
    exact List.eq_nil_iff_forall_not_mem.mpr fun result member => sample.sound result member

/-- A sample for two results decides whether there is exactly one. -/
theorem eq_singleton_iff {result : ρ} (sample : Sample 2 found results) :
    found = [result] ↔ results = {result} := by
  constructor
  · rintro rfl
    refine Set.eq_singleton_iff_unique_mem.mpr ⟨sample.sound result (List.mem_singleton_self _), ?_⟩
    exact fun other member => List.mem_singleton.mp (sample.complete (by simp) other member)
  · rintro rfl
    have all : ∀ other ∈ found, other = result := sample.sound
    have short : found.length ≤ 1 := by
      have within : found ⊆ [result] := fun other member =>
        List.mem_singleton.mpr (all other member)
      exact (List.subperm_of_subset sample.nodup within).length_le
    have held := sample.complete (by omega) result rfl
    obtain ⟨only, rfl⟩ := List.length_eq_one_iff.mp (by
      have := List.length_pos_of_mem held
      omega : found.length = 1)
    rw [all only (List.mem_singleton_self _)]

/-- A sample for two results decides whether there are two. -/
theorem two_le_iff (sample : Sample 2 found results) : 2 ≤ found.length ↔ results.Nontrivial := by
  constructor
  · intro many
    match found, many with
    | first :: second :: rest, _ =>
      refine ⟨first, sample.sound first (by simp), second, sample.sound second (by simp), ?_⟩
      rintro rfl
      exact (List.nodup_cons.mp sample.nodup).1 (by simp)
  · rintro ⟨first, here, second, there, different⟩
    by_contra few
    have within : [first, second] ⊆ found := by
      have all := sample.complete (by omega)
      simpa using ⟨all first here, all second there⟩
    have pair : [first, second].Nodup := by simpa using different
    have longer := (List.subperm_of_subset pair within).length_le
    simp only [List.length_cons, List.length_nil] at longer
    omega

variable [DecidableEq ρ]

theorem kept (sample : Sample bound found results) (result : ρ) :
    Sample bound (keepNew found result) (results ∪ {result}) := by
  change Sample bound (if result ∈ found then found else found ++ [result]) (results ∪ {result})
  split
  · next known =>
      refine ⟨sample.nodup, fun other member => .inl (sample.sound other member), ?_⟩
      rintro short other (old | new)
      · exact sample.complete short other old
      · exact new ▸ known
  · next unknown =>
      refine ⟨?_, ?_, ?_⟩
      · exact List.nodup_append.mpr ⟨sample.nodup, List.nodup_singleton result, by
          intro other member new last equal
          obtain rfl := List.mem_singleton.mp last
          exact unknown (equal ▸ member)⟩
      · intro other member
        obtain old | new := List.mem_append.mp member
        · exact .inl (sample.sound other old)
        · exact .inr (List.mem_singleton.mp new)
      · rintro short other (old | new)
        · rw [List.length_append, List.length_singleton] at short
          exact List.mem_append_left _ (sample.complete (by omega) other old)
        · exact List.mem_append_right _ (List.mem_singleton.mpr new)

/-- The results kept up to the bound sample the old results and the new ones. -/
theorem keptUpTo (sample : Sample bound found results) (new : List ρ) :
    Sample bound (keepUpTo bound found new).1 (results ∪ {result | result ∈ new}) ∧
      ((keepUpTo bound found new).2 = true → bound ≤ (keepUpTo bound found new).1.length) := by
  induction new generalizing found results with
  | nil => simpa [keepUpTo] using sample
  | cons result new ih =>
    have next := sample.kept result
    have together : results ∪ {result} ∪ {other | other ∈ new} =
        results ∪ {other | other ∈ result :: new} := by
      rw [Set.union_assoc]
      ext other
      simp [or_left_comm]
    rw [← together]
    by_cases known : result ∈ found
    · have same : keepNew found result = found := if_pos known
      rw [same] at next
      simpa [keepUpTo, known] using ih next
    · have longer : keepNew found result = found ++ [result] := if_neg known
      rw [longer] at next
      by_cases full : bound ≤ (found ++ [result]).length
      · have stopped : keepUpTo bound found (result :: new) = (found ++ [result], true) := by
          rw [keepUpTo, if_neg known, if_pos full]
        rw [stopped]
        exact ⟨next.of_full full fun _ => .inl, fun _ => full⟩
      · rw [keepUpTo, if_neg known, if_neg full]
        exact ih next

end Sample

end Sampling

/-! ## Cached computations -/

section Caching

variable {κ α β : Type} [DecidableEq κ]

/-- Look a key up, or compute its value and keep it. -/
def cached (key : κ) (compute : StateM (Dict κ α) α) : StateM (Dict κ α) α := do
  match (← get).get? key with
  | some value => pure value
  | none => do
    let value ← compute
    modify fun cache => cache.insert key value
    pure value

/-- Every kept value is good for its key. -/
def Dict.Keeps (cache : Dict κ α) (good : κ → α → Prop) : Prop :=
  ∀ key value, cache.get? key = some value → good key value

/-- From a cache of good values a computation returns what it should and leaves a cache of good
values. -/
def Computes (good : κ → α → Prop) (program : StateM (Dict κ α) β) (returned : β → Prop) : Prop :=
  ∀ cache : Dict κ α, cache.Keeps good →
    returned (program.run cache).1 ∧ (program.run cache).2.Keeps good

variable {good : κ → α → Prop} {key : κ} {compute : StateM (Dict κ α) α}

theorem Dict.keeps_empty : (Dict.empty : Dict κ α).Keeps good := by
  intro key value known
  simp at known

theorem Computes.pure {value : β} {returned : β → Prop} (holds : returned value) :
    Computes good (pure value) returned := fun _ keeps => ⟨holds, keeps⟩

theorem Computes.bind {γ : Type} {program : StateM (Dict κ α) β} {returned : β → Prop}
    {next : β → StateM (Dict κ α) γ} {ended : γ → Prop} (first : Computes good program returned)
    (second : ∀ value, returned value → Computes good (next value) ended) :
    Computes good (program >>= next) ended := fun cache keeps =>
  second _ (first cache keeps).1 _ (first cache keeps).2

theorem run_cached (cache : Dict κ α) : (cached key compute).run cache =
    match cache.get? key with
    | some value => (value, cache)
    | none =>
      ((compute.run cache).1, (compute.run cache).2.insert key (compute.run cache).1) := by
  cases known : cache.get? key with
  | some value => simp [cached, known]; rfl
  | none => simp [cached, known]; rfl

theorem Computes.lookup (fresh : Computes good compute (good key)) :
    Computes good (cached key compute) (good key) := by
  intro cache keeps
  rw [run_cached]
  cases known : cache.get? key with
  | some value => exact ⟨keeps key value known, keeps⟩
  | none =>
    obtain ⟨returned, kept⟩ := fresh cache keeps
    refine ⟨returned, fun other value stored => ?_⟩
    rw [Dict.get?_insert] at stored
    split at stored
    · next same => exact same ▸ Option.some.inj stored ▸ returned
    · exact kept other value stored

end Caching
