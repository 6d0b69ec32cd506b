import Mathlib.Data.List.Nodup
import Mathlib.Logic.Function.Basic
import Mathlib.Logic.Relation
import Mathlib.Tactic.Common

/-!
# Custody of items by fenced records

A record holds at most one item, and at most one claim holds a record.  A claim carries a token no
earlier claim carried and the generation its record then had; it is accepted while its record still has
both, and a claim that was refused once is refused for ever.  Only the accepted claim of a record
changes what the record holds.  When every step is careful, that is to an item never offered before, to
the item the claim names, or to an item of an unclaimed record, which gives it up; then no item is ever
held twice.
-/

namespace Custody

open Relation (ReflTransGen)

variable {ρ τ κ : Type*}

/-- How often a record was claimed, and the token of the claim that holds it. -/
structure Fence (τ : Type*) where
  generation : Nat
  token : Option τ

/-- A claim on a record, and the item it found there. -/
structure Claim (ρ τ κ : Type*) where
  record : ρ
  token : τ
  generation : Nat
  item : Option κ

/-- The records with every claim and every offered item so far; a standing claim is one whose record
was not removed since. -/
structure History (ρ τ κ : Type*) where
  fence : ρ → Option (Fence τ)
  item : ρ → Option κ
  issued : List (Claim ρ τ κ)
  standing : List (Claim ρ τ κ)
  offered : List κ

variable {history after : History ρ τ κ} {claim other : Claim ρ τ κ} {record source target : ρ}
  {item : κ} {token : τ} {generation : Nat}

namespace History

/-- The claim holds its record. -/
def Accepts (history : History ρ τ κ) (claim : Claim ρ τ κ) : Prop :=
  history.fence claim.record = some ⟨claim.generation, some claim.token⟩

/-- The record holds the item, or the claim that holds the record names it. -/
def Reserved (history : History ρ τ κ) (record : ρ) (item : κ) : Prop :=
  history.item record = some item ∨
    ∃ claim ∈ history.issued, history.Accepts claim ∧ claim.record = record ∧ claim.item = some item

variable [DecidableEq ρ]

/-- The history with another fence. -/
def withFence (history : History ρ τ κ) (record : ρ) (fence : Option (Fence τ)) :
    History ρ τ κ :=
  { history with fence := Function.update history.fence record fence }

/-- The history with another item. -/
def withItem (history : History ρ τ κ) (record : ρ) (item : Option κ) : History ρ τ κ :=
  { history with item := Function.update history.item record item }

/-- The history with one more claim. -/
def withClaim (history : History ρ τ κ) (claim : Claim ρ τ κ) : History ρ τ κ :=
  { history.withFence claim.record (some ⟨claim.generation, some claim.token⟩) with
    issued := history.issued ++ [claim]
    standing := history.standing ++ [claim] }

/-- The history without a record. -/
def without (history : History ρ τ κ) (record : ρ) : History ρ τ κ :=
  { history.withFence record none with
    standing := history.standing.filter fun claim => decide (claim.record ≠ record) }

end History

variable [DecidableEq ρ]

/-- One change of the records; a careful one places no item that could be elsewhere. -/
inductive Step (careful : Prop) : History ρ τ κ → History ρ τ κ → Prop
  | opened {history : History ρ τ κ} {record : ρ} (absent : history.fence record = none) :
      Step careful history (history.withFence record (some ⟨0, none⟩))
  | granted {history : History ρ τ κ} {record : ρ} {generation : Nat} {token : τ}
      (free : history.fence record = some ⟨generation, none⟩)
      (fresh : ∀ claim ∈ history.issued, claim.token ≠ token) :
      Step careful history (history.withClaim ⟨record, token, generation + 1, history.item record⟩)
  | freed {history : History ρ τ κ} {record : ρ} {generation : Nat} {token : Option τ}
      (found : history.fence record = some ⟨generation, token⟩) :
      Step careful history (history.withFence record (some ⟨generation, none⟩))
  | removed {history : History ρ τ κ} {record : ρ} (vacant : history.item record = none) :
      Step careful history (history.without record)
  | offered {history : History ρ τ κ} {item : κ} :
      Step careful history { history with offered := history.offered ++ [item] }
  | placed {history : History ρ τ κ} {claim : Claim ρ τ κ} {item : κ}
      (issued : claim ∈ history.issued) (accepted : history.Accepts claim)
      (allowed : careful → item ∉ history.offered ∨ claim.item = some item) :
      Step careful history { history.withItem claim.record (some item) with
        offered := history.offered ++ [item] }
  | taken {history : History ρ τ κ} {record : ρ} : Step careful history (history.withItem record none)
  | moved {history : History ρ τ κ} {source target : ρ} {generation : Nat} {fence : Fence τ}
      {item : κ} (found : history.item source = some item)
      (unclaimed : history.fence source = some ⟨generation, none⟩)
      (held : history.fence target = some fence) (claimed : fence.token ≠ none) :
      Step careful history ((history.withItem target (some item)).withItem source none)

variable {careful : Prop}

/-! ## Sound histories -/

/-- What every step keeps. -/
structure Fenced (history : History ρ τ κ) : Prop where
  vacant : ∀ record, history.fence record = none → history.item record = none
  holder : ∀ record generation token, history.fence record = some ⟨generation, some token⟩ →
    ∃ claim ∈ history.issued, claim.record = record ∧ claim.token = token ∧
      claim.generation = generation
  tokens : (history.issued.map Claim.token).Nodup
  bounded : ∀ claim ∈ history.standing, ∃ fence, history.fence claim.record = some fence ∧
    claim.generation ≤ fence.generation
  increasing : history.standing.Pairwise fun old new =>
    old.record = new.record → old.generation < new.generation

/-- What every careful step keeps. -/
structure Sound (history : History ρ τ κ) : Prop extends Fenced history where
  reserved : ∀ left right item, history.Reserved left item → history.Reserved right item →
    left = right
  offered : ∀ record item, history.Reserved record item → item ∈ history.offered

omit [DecidableEq ρ] in
theorem Fenced.eq_of_token (fenced : Fenced history) (left : claim ∈ history.issued)
    (right : other ∈ history.issued) (same : claim.token = other.token) : claim = other :=
  List.inj_on_of_nodup_map fenced.tokens left right same

omit [DecidableEq ρ] in
theorem Fenced.accepted_unique (fenced : Fenced history) (left : claim ∈ history.issued)
    (right : other ∈ history.issued) (accepted : history.Accepts claim)
    (otherAccepted : history.Accepts other) (same : claim.record = other.record) :
    claim = other := by
  unfold History.Accepts at accepted otherAccepted
  rw [same, otherAccepted] at accepted
  simp only [Option.some.injEq, Fence.mk.injEq] at accepted
  exact fenced.eq_of_token left right accepted.2.symm

omit [DecidableEq ρ] in
theorem Fenced.accepts_of_token (fenced : Fenced history) (issued : claim ∈ history.issued)
    (held : history.fence record = some ⟨generation, some claim.token⟩) :
    claim.record = record ∧ history.Accepts claim := by
  obtain ⟨holder, member, rfl, token, rfl⟩ := fenced.holder record generation claim.token held
  obtain rfl := fenced.eq_of_token issued member token.symm
  exact ⟨rfl, held⟩

omit [DecidableEq ρ] in
theorem Sound.item_unique (sound : Sound history) (left : history.item source = some item)
    (right : history.item target = some item) : source = target :=
  sound.reserved source target item (.inl left) (.inl right)

/-! ## What a step keeps -/

theorem accepts_withFence {fence : Option (Fence τ)} :
    (history.withFence record fence).Accepts claim ↔
      if claim.record = record then fence = some ⟨claim.generation, some claim.token⟩
      else history.Accepts claim := by
  simp only [History.Accepts, History.withFence, Function.update_apply]
  split <;> rfl

theorem accepts_of_withFence {fence : Option (Fence τ)}
    (free : ∀ generation token, fence ≠ some ⟨generation, some token⟩)
    (accepted : (history.withFence record fence).Accepts claim) : history.Accepts claim := by
  rw [accepts_withFence] at accepted
  split at accepted
  · exact absurd accepted (free _ _)
  · exact accepted

/-- An accepted claim was accepted before the step, or the step issued it. -/
theorem Step.accepts (step : Step careful history after) (accepted : after.Accepts claim) :
    history.Accepts claim ∨ claim.token ∉ history.issued.map Claim.token := by
  cases step with
  | opened => exact .inl (accepts_of_withFence (by simp) accepted)
  | granted _ fresh =>
    have held := accepts_withFence.mp accepted
    split at held
    · simp only [Option.some.injEq, Fence.mk.injEq] at held
      refine .inr fun member => ?_
      obtain ⟨old, issued, equal⟩ := List.mem_map.mp member
      exact fresh old issued (equal.trans held.2.symm)
    · exact .inl held
  | freed => exact .inl (accepts_of_withFence (by simp) accepted)
  | removed => exact .inl (accepts_of_withFence (by simp) accepted)
  | offered => exact .inl accepted
  | placed => exact .inl accepted
  | taken => exact .inl accepted
  | moved => exact .inl accepted

theorem Step.issued (step : Step careful history after) (issued : claim ∈ history.issued) :
    claim ∈ after.issued := by
  cases step with
  | granted => exact List.mem_append_left _ issued
  | opened => exact issued
  | freed => exact issued
  | removed => exact issued
  | offered => exact issued
  | placed => exact issued
  | taken => exact issued
  | moved => exact issued

theorem Step.refused (step : Step careful history after) (issued : claim ∈ history.issued)
    (refused : ¬history.Accepts claim) : ¬after.Accepts claim := by
  intro accepted
  obtain before | fresh := step.accepts accepted
  · exact refused before
  · exact fresh (List.mem_map_of_mem issued)

theorem reserved_withClaim (reserved : (history.withClaim claim).Reserved record item)
    (fresh : ∀ old ∈ history.issued, old.token ≠ claim.token)
    (names : claim.item = history.item claim.record) : history.Reserved record item := by
  obtain held | ⟨holder, member, accepted, rfl, named⟩ := reserved
  · exact .inl held
  · obtain issued | same := List.mem_append.mp member
    · have held := accepts_withFence.mp accepted
      split at held
      · simp only [Option.some.injEq, Fence.mk.injEq] at held
        exact absurd held.2.symm (fresh holder issued)
      · exact .inr ⟨holder, issued, held, rfl, named⟩
    · obtain rfl := List.mem_singleton.mp same
      exact .inl (names.symm.trans named)

theorem reserved_withFence {fence : Option (Fence τ)}
    (free : ∀ generation token, fence ≠ some ⟨generation, some token⟩)
    (reserved : (history.withFence source fence).Reserved record item) :
    history.Reserved record item := by
  obtain held | ⟨claim, issued, accepted, same, named⟩ := reserved
  · exact .inl held
  · exact .inr ⟨claim, issued, accepts_of_withFence free accepted, same, named⟩

theorem reserved_withItem {entered : Option κ}
    (reserved : (history.withItem source entered).Reserved record item) :
    history.Reserved record item ∨ record = source ∧ entered = some item := by
  obtain held | named := reserved
  · simp only [History.withItem, Function.update_apply] at held
    split at held
    · next same => exact .inr ⟨same, held⟩
    · exact .inl (.inl held)
  · exact .inl (.inr named)

theorem not_reserved_withItem_none (unclaimed : history.fence source = some ⟨generation, none⟩) :
    ¬(history.withItem source none).Reserved source item := by
  rintro (held | ⟨claim, -, accepted, rfl, -⟩)
  · simp [History.withItem] at held
  · have held : history.Accepts claim := accepted
    rw [History.Accepts, unclaimed] at held
    cases held

/-- An item reserved after a step was reserved at the record before, or is reserved nowhere else. -/
theorem Step.reserved (step : Step True history after) (sound : Sound history)
    (reserved : after.Reserved record item) :
    history.Reserved record item ∨
      item ∈ after.offered ∧ ∀ other, after.Reserved other item → other = record := by
  cases step with
  | opened => exact .inl (reserved_withFence (by simp) reserved)
  | granted _ fresh => exact .inl (reserved_withClaim reserved fresh rfl)
  | freed => exact .inl (reserved_withFence (by simp) reserved)
  | removed => exact .inl (reserved_withFence (by simp) reserved)
  | offered => exact .inl reserved
  | @placed claim entered issued accepted allowed =>
    obtain before | ⟨rfl, same⟩ := reserved_withItem reserved
    · exact .inl before
    · obtain rfl := Option.some.inj same
      refine .inr ⟨List.mem_append_right _ (List.mem_singleton.mpr rfl), fun other again => ?_⟩
      obtain before | ⟨rfl, -⟩ := reserved_withItem again
      · obtain fresh | named := allowed trivial
        · exact absurd (sound.offered other entered before) fresh
        · exact sound.reserved other _ entered before (.inr ⟨_, issued, accepted, rfl, named⟩)
      · rfl
  | taken =>
    obtain before | ⟨-, same⟩ := reserved_withItem reserved
    · exact .inl before
    · cases same
  | @moved source target _ _ entered found unclaimed held claimed =>
    obtain middle | ⟨-, same⟩ := reserved_withItem reserved
    · obtain before | ⟨rfl, same⟩ := reserved_withItem middle
      · exact .inl before
      · obtain rfl := Option.some.inj same
        refine .inr ⟨sound.offered source entered (.inl found), fun other again => ?_⟩
        obtain between | ⟨-, same⟩ := reserved_withItem again
        · obtain before | ⟨rfl, -⟩ := reserved_withItem between
          · obtain rfl := sound.reserved other source entered before (.inl found)
            exact absurd again (not_reserved_withItem_none unclaimed)
          · rfl
        · cases same
    · cases same

theorem Step.offered_mono (step : Step careful history after) (member : item ∈ history.offered) :
    item ∈ after.offered := by
  cases step with
  | offered => exact List.mem_append_left _ member
  | placed => exact List.mem_append_left _ member
  | opened => exact member
  | granted => exact member
  | freed => exact member
  | removed => exact member
  | taken => exact member
  | moved => exact member

theorem fence_withFence {fence : Option (Fence τ)} {other : ρ} :
    (history.withFence record fence).fence other =
      if other = record then fence else history.fence other := by
  simp only [History.withFence, Function.update_apply]

theorem item_withItem {entered : Option κ} {other : ρ} :
    (history.withItem record entered).item other =
      if other = record then entered else history.item other := by
  simp only [History.withItem, Function.update_apply]

theorem absent_of_withFence {fence : Fence τ} {other : ρ}
    (absent : (history.withFence record (some fence)).fence other = none) :
    history.fence other = none := by
  rw [fence_withFence] at absent
  split at absent
  · cases absent
  · exact absent

/-- An absent record holds nothing. -/
theorem Step.vacant (step : Step careful history after) (fenced : Fenced history)
    (absent : after.fence record = none) : after.item record = none := by
  cases step with
  | opened => exact fenced.vacant record (absent_of_withFence absent)
  | granted => exact fenced.vacant record (absent_of_withFence absent)
  | freed => exact fenced.vacant record (absent_of_withFence absent)
  | @removed removed vacant =>
    have missing := fence_withFence.symm.trans absent
    split at missing
    · next same => exact same ▸ vacant
    · exact fenced.vacant record missing
  | offered => exact fenced.vacant record absent
  | @placed claim entered _ accepted _ =>
    have missing : history.fence record = none := absent
    change (history.withItem claim.record (some entered)).item record = none
    rw [item_withItem, if_neg, fenced.vacant record missing]
    rintro rfl
    exact absurd (missing.symm.trans accepted) (by simp)
  | @taken source =>
    rw [item_withItem, fenced.vacant record absent, ite_self]
  | @moved source target _ _ entered _ _ held _ =>
    have missing : history.fence record = none := absent
    have different : record ≠ target := by
      rintro rfl
      exact absurd (missing.symm.trans held) (by simp)
    rw [item_withItem, item_withItem, if_neg different, fenced.vacant record missing, ite_self]

/-- A record that a step leaves claimed was claimed so before, or by the new claim. -/
theorem Step.holder (step : Step careful history after) (fenced : Fenced history)
    (held : after.fence record = some ⟨generation, some token⟩) :
    ∃ claim ∈ after.issued, claim.record = record ∧ claim.token = token ∧
      claim.generation = generation := by
  have earlier (before : history.fence record = some ⟨generation, some token⟩) :
      ∃ claim ∈ after.issued, claim.record = record ∧ claim.token = token ∧
        claim.generation = generation := by
    obtain ⟨claim, issued, found⟩ := fenced.holder record generation token before
    exact ⟨claim, step.issued issued, found⟩
  cases step with
  | opened =>
    rw [fence_withFence] at held
    split at held
    · cases held
    · exact earlier held
  | granted =>
    have found := fence_withFence.symm.trans held
    split at found
    · next same =>
        simp only [Option.some.injEq, Fence.mk.injEq] at found
        exact ⟨_, List.mem_append_right _ (List.mem_singleton.mpr rfl), same.symm, found.2,
          found.1⟩
    · exact earlier found
  | freed =>
    rw [fence_withFence] at held
    split at held
    · cases held
    · exact earlier held
  | removed =>
    have found := fence_withFence.symm.trans held
    split at found
    · cases found
    · exact earlier found
  | offered => exact earlier held
  | placed => exact earlier held
  | taken => exact earlier held
  | moved => exact earlier held

theorem Step.tokens (step : Step careful history after) (fenced : Fenced history) :
    (after.issued.map Claim.token).Nodup := by
  cases step with
  | granted _ fresh =>
    simp only [History.withClaim, List.map_append, List.map_cons, List.map_nil]
    refine fenced.tokens.append (List.nodup_singleton _) ?_
    simp only [List.disjoint_singleton, List.mem_map, not_exists, not_and]
    exact fresh
  | opened => exact fenced.tokens
  | freed => exact fenced.tokens
  | removed => exact fenced.tokens
  | offered => exact fenced.tokens
  | placed => exact fenced.tokens
  | taken => exact fenced.tokens
  | moved => exact fenced.tokens

theorem bounded_withFence {fence : Fence τ} (fenced : Fenced history)
    (grows : ∀ old, history.fence record = some old → old.generation ≤ fence.generation)
    (standing : claim ∈ history.standing) :
    ∃ found, (history.withFence record (some fence)).fence claim.record = some found ∧
      claim.generation ≤ found.generation := by
  obtain ⟨old, found, bound⟩ := fenced.bounded claim standing
  rw [fence_withFence]
  split
  · next same => exact ⟨fence, rfl, Nat.le_trans bound (grows old (same ▸ found))⟩
  · exact ⟨old, found, bound⟩

theorem Step.bounded (step : Step careful history after) (fenced : Fenced history)
    (standing : claim ∈ after.standing) :
    ∃ fence, after.fence claim.record = some fence ∧ claim.generation ≤ fence.generation := by
  cases step with
  | opened absent => exact bounded_withFence fenced (by simp [absent]) standing
  | granted free =>
    obtain old | same := List.mem_append.mp standing
    · exact bounded_withFence fenced (by simp [free]) old
    · obtain rfl := List.mem_singleton.mp same
      exact ⟨_, by rw [History.withClaim, fence_withFence, if_pos rfl], Nat.le_refl _⟩
  | freed found => exact bounded_withFence fenced (by simp [found]) standing
  | removed =>
    obtain ⟨old, different⟩ := List.mem_filter.mp standing
    obtain ⟨fence, found, bound⟩ := fenced.bounded claim old
    refine ⟨fence, ?_, bound⟩
    rw [History.without, fence_withFence, if_neg (of_decide_eq_true different), found]
  | offered => exact fenced.bounded claim standing
  | placed => exact fenced.bounded claim standing
  | taken => exact fenced.bounded claim standing
  | moved => exact fenced.bounded claim standing

/-- Standing claims of one record have increasing generations. -/
theorem Step.increasing (step : Step careful history after) (fenced : Fenced history) :
    after.standing.Pairwise fun old new =>
      old.record = new.record → old.generation < new.generation := by
  cases step with
  | granted free =>
    refine List.pairwise_append.mpr ⟨fenced.increasing, List.pairwise_singleton _ _, ?_⟩
    intro old standing new member same
    obtain rfl := List.mem_singleton.mp member
    obtain ⟨fence, found, bound⟩ := fenced.bounded old standing
    obtain rfl := Option.some.inj (free.symm.trans (same ▸ found))
    exact Nat.lt_succ_of_le bound
  | removed => exact fenced.increasing.filter _
  | opened => exact fenced.increasing
  | freed => exact fenced.increasing
  | offered => exact fenced.increasing
  | placed => exact fenced.increasing
  | taken => exact fenced.increasing
  | moved => exact fenced.increasing

theorem Step.fenced (step : Step careful history after) (fenced : Fenced history) :
    Fenced after where
  vacant _ absent := step.vacant fenced absent
  holder _ _ _ held := step.holder fenced held
  tokens := step.tokens fenced
  bounded _ standing := step.bounded fenced standing
  increasing := step.increasing fenced

theorem Step.sound (step : Step True history after) (sound : Sound history) : Sound after where
  toFenced := step.fenced sound.toFenced
  reserved left right item first second := by
    obtain before | ⟨-, only⟩ := step.reserved sound first
    · obtain again | ⟨-, only⟩ := step.reserved sound second
      · exact sound.reserved left right item before again
      · exact only left first
    · exact (only right second).symm
  offered record item reserved := by
    obtain before | ⟨offered, -⟩ := step.reserved sound reserved
    · exact step.offered_mono (sound.offered record item before)
    · exact offered

/-! ## Runs -/

/-- The history without records. -/
def History.empty : History ρ τ κ where
  fence _ := none
  item _ := none
  issued := []
  standing := []
  offered := []

omit [DecidableEq ρ] in
theorem sound_empty : Sound (History.empty : History ρ τ κ) where
  vacant _ _ := rfl
  reserved left right item reserved := by simp [History.Reserved, History.empty] at reserved
  offered record item reserved := by simp [History.Reserved, History.empty] at reserved
  holder _ _ _ held := by cases held
  tokens := List.nodup_nil
  bounded _ standing := by cases standing
  increasing := .nil

theorem run_sound (run : ReflTransGen (Step True) history after) (sound : Sound history) :
    Sound after := by
  induction run with
  | refl => exact sound
  | tail _ step ih => exact step.sound ih

theorem run_fenced (run : ReflTransGen (Step careful) history after) (fenced : Fenced history) :
    Fenced after := by
  induction run with
  | refl => exact fenced
  | tail _ step ih => exact step.fenced ih

theorem run_issued (run : ReflTransGen (Step careful) history after) (issued : claim ∈ history.issued) :
    claim ∈ after.issued := by
  induction run with
  | refl => exact issued
  | tail _ step ih => exact step.issued ih

theorem run_refused (run : ReflTransGen (Step careful) history after) (issued : claim ∈ history.issued)
    (refused : ¬history.Accepts claim) : ¬after.Accepts claim := by
  induction run with
  | refl => exact refused
  | tail before step ih => exact step.refused (run_issued before issued) ih

end Custody
