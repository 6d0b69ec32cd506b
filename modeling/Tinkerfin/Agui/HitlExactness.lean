import Tinkerfin.Agui.HitlCorrelation

/-!
# Exactness of the correlation

An assignment chooses for every group an in-order selection of one message's calls and uses no
identifier twice.  Both searches end with a sample of the assignments behind their mask: the search
of one group through its cache, the search of several groups through its used identifiers.
-/

namespace Tinkerfin.Agui

/-! ## Assignments -/

/-- The identifiers of the chosen calls. -/
def chosenIds (chosen : List (List HitlToolCallCandidate)) : List (List String) :=
  chosen.map fun selection => selection.map HitlToolCallCandidate.toolCallId

/-- Every group has an in-order selection of one message, and no identifier is used twice. -/
structure Assigns (accepts : HitlActionRequest → HitlToolCallCandidate → Bool)
    (candidateMessages : List (List HitlToolCallCandidate)) (used : List String)
    (actionGroups : List (List HitlActionRequest)) (chosen : List (List HitlToolCallCandidate)) :
    Prop where
  selections : List.Forall₂
    (fun actions selection => ∃ candidates ∈ candidateMessages,
      Selects accepts actions candidates selection)
    actionGroups chosen
  distinct : (used ++ (chosenIds chosen).flatten).Nodup

/-- The results of all assignments behind the mask. -/
def assignmentResults (projectedSlots : Option (List (List Bool)))
    (actionGroups : List (List HitlActionRequest))
    (candidateMessages : List (List HitlToolCallCandidate)) : Set (List (List String)) :=
  {result | ∃ chosen, Assigns accepts candidateMessages [] actionGroups chosen ∧
    result = projectSolution projectedSlots (chosenIds chosen)}

section Assignments

variable {accepted : HitlActionRequest → HitlToolCallCandidate → Bool}
  {candidateMessages : List (List HitlToolCallCandidate)} {used : List String}
  {actions : List HitlActionRequest} {groups : List (List HitlActionRequest)}
  {chosen : List (List HitlToolCallCandidate)} {selection : List HitlToolCallCandidate}

theorem assigns_nil :
    Assigns accepted candidateMessages used [] chosen ↔ chosen = [] ∧ used.Nodup := by
  constructor
  · rintro ⟨selections, distinct⟩
    cases selections
    exact ⟨rfl, by simpa [chosenIds] using distinct⟩
  · rintro ⟨rfl, distinct⟩
    exact ⟨.nil, by simpa [chosenIds] using distinct⟩

/-- The calls of a selection are new. -/
def Fresh (used : List String) (selection : List HitlToolCallCandidate) : Prop :=
  (used ++ selection.map HitlToolCallCandidate.toolCallId).Nodup

theorem fresh_iff (distinct : used.Nodup) : Fresh used selection ↔
    ¬(¬(selection.map HitlToolCallCandidate.toolCallId).Nodup ∨
      ∃ callId ∈ selection.map HitlToolCallCandidate.toolCallId, callId ∈ used) := by
  simp only [Fresh, List.nodup_append, distinct, true_and, not_or, not_not, not_exists, not_and]
  refine and_congr_right fun _ => ⟨?_, ?_⟩
  · exact fun apart callId new old => apart callId old callId new rfl
  · exact fun apart old member new fresh same => apart new fresh (same ▸ member)

/-- An assignment chooses for the first group and goes on with fewer free calls. -/
theorem assigns_cons : Assigns accepted candidateMessages used (actions :: groups) chosen ↔
    ∃ candidates ∈ candidateMessages, ∃ selection,
      Selects accepted actions candidates selection ∧ Fresh used selection ∧ ∃ rest,
        Assigns accepted candidateMessages
          (used ++ selection.map HitlToolCallCandidate.toolCallId) groups rest ∧
        chosen = selection :: rest := by
  constructor
  · rintro ⟨selections, distinct⟩
    cases selections with
    | cons first rest =>
      obtain ⟨candidates, member, selects⟩ := first
      have apart := distinct
      simp only [chosenIds, List.map_cons, List.flatten_cons, ← List.append_assoc] at apart
      exact ⟨candidates, member, _, selects, (List.nodup_append.mp apart).1, _, ⟨rest, apart⟩,
        rfl⟩
  · rintro ⟨candidates, member, selection, selects, -, rest, ⟨selections, distinct⟩, rfl⟩
    exact ⟨.cons ⟨candidates, member, selects⟩ selections, by
      simpa [chosenIds, List.append_assoc] using distinct⟩

end Assignments

/-! ## Several groups -/

/-- A search covers results when it adds them to the sample, or stops with a full one. -/
def Covers (results : Set (List (List String)))
    (search : EStateM HitlError HitlSearch (Option Unit)) : Prop :=
  ∀ before covered, Sample 2 before.solutions covered →
    search.Ensures before
      (fun stopped after => Sample 2 after.solutions (covered ∪ results) ∧
        (stopped.isSome → 1 < after.solutions.length))
      fun error _ => error = .searchBudget

theorem countSearchStep_ensures (before : HitlSearch) :
    countSearchStep.Ensures before (fun _ after => after.solutions = before.solutions)
      fun error _ => error = .searchBudget := by
  simp only [countSearchStep, EStateM.ensures_bind, EStateM.ensures_modify, EStateM.ensures_get]
  exact EStateM.ensures_guard.mpr ⟨fun _ => rfl, fun _ => rfl⟩

theorem covers_exploration : Exploration countSearchStep Covers where
  idle := fun before covered sample => by simpa using sample
  counted := by
    intro results search covers before covered sample
    refine EStateM.ensures_bind.mpr ((countSearchStep_ensures before).mono ?_ fun _ _ => id)
    exact fun _ after same => covers after covered (same ▸ sample)
  andThen := by
    intro left right first second here there before covered sample
    refine EStateM.ensures_bind.mpr ((here before covered sample).mono ?_ fun _ _ => id)
    rintro (_ | stop) after ⟨sample, full⟩
    · simpa [Set.union_assoc] using there after _ sample
    · refine ⟨sample.of_full (full rfl) ?_, full⟩
      rw [← Set.union_assoc]
      exact Set.subset_union_left

theorem messages_cover {m : Type → Type} [Monad m] {β ρ : Type} {step : m PUnit}
    {covers : Set ρ → m (Option β) → Prop} (exploration : Exploration step covers)
    {accepted : HitlActionRequest → HitlToolCallCandidate → Bool}
    (candidateMessages : List (List HitlToolCallCandidate)) (actions : List HitlActionRequest)
    {consume : List HitlToolCallCandidate → m (Option β)}
    (results : List HitlToolCallCandidate → Set ρ)
    (consumed : ∀ selection, covers (results selection) (consume selection)) :
    covers {result | ∃ candidates ∈ candidateMessages, ∃ selection,
        Selects accepted actions candidates selection ∧ result ∈ results selection}
      (candidateMessages.findSomeM? fun candidates =>
        orderedSelections step accepted consume actions candidates []) := by
  refine exploration.loop fun candidates _ => ?_
  exact exploration.selections results accepted actions candidates []
    fun selection _ => consumed ([] ++ selection)

/-- The results of the assignments that go on from chosen groups. -/
def remainingResults (projectedSlots : Option (List (List Bool)))
    (candidateMessages : List (List HitlToolCallCandidate)) (groups : List (List HitlActionRequest))
    (used : List String) (selected : List (List String)) : Set (List (List String)) :=
  {result | ∃ rest, Assigns accepts candidateMessages used groups rest ∧
    result = projectSolution projectedSlots (selected ++ chosenIds rest)}

theorem remainingResults_cons {projectedSlots : Option (List (List Bool))}
    {candidateMessages : List (List HitlToolCallCandidate)} {actions : List HitlActionRequest}
    {groups : List (List HitlActionRequest)} {used : List String} {selected : List (List String)} :
    remainingResults projectedSlots candidateMessages (actions :: groups) used selected =
      {result | ∃ candidates ∈ candidateMessages, ∃ selection,
        Selects accepts actions candidates selection ∧ Fresh used selection ∧
          result ∈ remainingResults projectedSlots candidateMessages groups
            (used ++ selection.map HitlToolCallCandidate.toolCallId)
            (selected ++ [selection.map HitlToolCallCandidate.toolCallId])} := by
  ext result
  simp only [remainingResults, Set.mem_ofPred_eq, assigns_cons]
  constructor
  · rintro ⟨_, ⟨candidates, member, selection, selects, fresh, rest, assigns, rfl⟩, rfl⟩
    exact ⟨candidates, member, selection, selects, fresh, rest, assigns, by simp [chosenIds]⟩
  · rintro ⟨candidates, member, selection, selects, fresh, rest, assigns, rfl⟩
    exact ⟨_, ⟨candidates, member, selection, selects, fresh, rest, assigns, rfl⟩, by
      simp [chosenIds]⟩

/-- Assigning the remaining groups adds their results to the sample. -/
theorem assign_ensures (projectedSlots : Option (List (List Bool)))
    (candidateMessages : List (List HitlToolCallCandidate)) (groups : List (List HitlActionRequest))
    {used : List String} (selected : List (List String)) (distinct : used.Nodup)
    (before : HitlSearch) (covered : Set (List (List String)))
    (sample : Sample 2 before.solutions covered) :
    (assignGroups projectedSlots candidateMessages groups used selected).Ensures before
      (fun _ after => Sample 2 after.solutions
        (covered ∪ remainingResults projectedSlots candidateMessages groups used selected))
      fun error _ => error = .searchBudget := by
  induction groups generalizing used selected before covered with
  | nil =>
    simp only [assignGroups, EStateM.ensures_bind, EStateM.ensures_get]
    refine EStateM.ensures_ite.mpr ⟨fun full => ?_, fun _ => ?_⟩
    · exact sample.of_full full Set.subset_union_left
    · have only : remainingResults projectedSlots candidateMessages [] used selected =
          {projectSolution projectedSlots selected} := by
        ext result
        simp [remainingResults, assigns_nil, distinct, chosenIds]
      simpa [only] using sample.kept (projectSolution projectedSlots selected)
  | cons actions groups ih =>
    simp only [assignGroups, EStateM.ensures_bind, EStateM.ensures_get]
    refine EStateM.ensures_ite.mpr ⟨fun full => ?_, fun _ => ?_⟩
    · exact sample.of_full full Set.subset_union_left
    · rw [EStateM.ensures_discard, remainingResults_cons]
      refine (messages_cover covers_exploration candidateMessages actions
        (fun selection => {result | Fresh used selection ∧
          result ∈ remainingResults projectedSlots candidateMessages groups
            (used ++ selection.map HitlToolCallCandidate.toolCallId)
            (selected ++ [selection.map HitlToolCallCandidate.toolCallId])})
        (fun selection => ?_) before covered sample).mono (fun _ _ => And.left) fun _ _ => id
      intro before covered sample
      refine EStateM.ensures_ite.mpr ⟨fun taken => ?_, fun free => ?_⟩
      · have none : ¬Fresh used selection := fun fresh => (fresh_iff distinct).mp fresh taken
        simpa [none] using sample
      · have fresh : Fresh used selection := (fresh_iff distinct).mpr free
        rw [EStateM.ensures_bind]
        refine (ih (selected ++ [_]) fresh before covered sample).mono ?_ fun _ _ => id
        intro _ after sample
        simp only [EStateM.ensures_bind, EStateM.ensures_get]
        refine EStateM.ensures_ite.mpr ⟨fun full => ?_, fun _ => ?_⟩
        · exact ⟨by simpa [fresh] using sample, fun _ => full⟩
        · exact ⟨by simpa [fresh] using sample, by simp⟩

theorem remainingResults_start {projectedSlots : Option (List (List Bool))}
    {candidateMessages : List (List HitlToolCallCandidate)}
    {actionGroups : List (List HitlActionRequest)} :
    remainingResults projectedSlots candidateMessages actionGroups [] [] =
      assignmentResults projectedSlots actionGroups candidateMessages := by
  simp [remainingResults, assignmentResults]

theorem multiGroupSolutions_sample {projectedSlots : Option (List (List Bool))}
    {actionGroups : List (List HitlActionRequest)}
    {candidateMessages : List (List HitlToolCallCandidate)} :
    (∃ solutions,
      multiGroupSolutions projectedSlots actionGroups candidateMessages = .ok solutions ∧
      Sample 2 solutions (assignmentResults projectedSlots actionGroups candidateMessages)) ∨
    multiGroupSolutions projectedSlots actionGroups candidateMessages = .error .searchBudget := by
  have ensures := assign_ensures projectedSlots candidateMessages actionGroups [] List.nodup_nil
    ⟨0, []⟩ ∅ .empty
  rw [remainingResults_start, Set.empty_union] at ensures
  unfold multiGroupSolutions
  cases outcome :
      (assignGroups projectedSlots candidateMessages actionGroups [] []).run ⟨0, []⟩ with
  | ok _ search => exact .inl ⟨_, rfl, ensures.of_ok outcome⟩
  | error error _ => exact .inr (congrArg Except.error (ensures.of_error outcome))

/-! ## One group -/

/-- The projections of the selections for actions with their slots. -/
def projections (actions : List (HitlActionRequest × Bool))
    (candidates : List HitlToolCallCandidate) : Set (List String) :=
  {result | ∃ selection, Selects (fun slotted => accepts slotted.1) actions candidates selection ∧
    result = projectIds (selection.map HitlToolCallCandidate.toolCallId) (actions.map Prod.snd)}

/-- What a call contributes in front of the identifiers behind it. -/
def contribute (candidate : HitlToolCallCandidate) (selectedSlot : Bool) (rest : List String) :
    List String :=
  if selectedSlot then candidate.toolCallId :: rest else rest

theorem contribute_injective (candidate : HitlToolCallCandidate) (selectedSlot : Bool) :
    (contribute candidate selectedSlot).Injective := by
  intro left right same
  cases selectedSlot <;> simpa [contribute] using same

theorem projections_cons_cons {action : HitlActionRequest} {slot : Bool}
    {actions : List (HitlActionRequest × Bool)} {candidate : HitlToolCallCandidate}
    {later : List HitlToolCallCandidate} :
    projections ((action, slot) :: actions) (candidate :: later) =
      (if accepts action candidate = true then
        contribute candidate slot '' projections actions later else ∅) ∪
        projections ((action, slot) :: actions) later := by
  ext result
  simp only [projections, Set.mem_ofPred_eq, selects_cons_cons, Set.mem_union]
  split
  · next accepted =>
      simp only [accepted, true_and, or_and_right, exists_or]
      refine or_congr ⟨?_, ?_⟩ Iff.rfl
      · rintro ⟨_, ⟨rest, selects, rfl⟩, rfl⟩
        refine ⟨_, ⟨rest, selects, rfl⟩, ?_⟩
        cases slot <;> simp [contribute, projectIds]
      · rintro ⟨_, ⟨rest, selects, rfl⟩, rfl⟩
        refine ⟨_, ⟨rest, selects, rfl⟩, ?_⟩
        cases slot <;> simp [contribute, projectIds]
  · next refused => simp [refused]

/-- The cached solutions from an action and a candidate on. -/
def CachedSample (actions : List (HitlActionRequest × Bool))
    (candidates : List HitlToolCallCandidate) (indexes : Nat × Nat)
    (solutions : List (List String)) : Prop :=
  Sample 2 solutions (projections (actions.drop indexes.1) (candidates.drop indexes.2))

theorem cachedSample_eq {actions rest : List (HitlActionRequest × Bool)}
    {candidates : List HitlToolCallCandidate} {actionIndex candidateIndex : Nat}
    (suffix : rest = actions.drop actionIndex) :
    (fun solutions => Sample 2 solutions (projections rest (candidates.drop candidateIndex))) =
      CachedSample actions candidates (actionIndex, candidateIndex) := by
  rw [suffix]
  rfl

/-- The loop of one call samples the matches from its candidate on. -/
theorem projectedLoop_computes {good : Nat × Nat → List (List String) → Prop}
    {search : Nat → List HitlToolCallCandidate → StateM ProjectedCache (List (List String))}
    (action : HitlActionRequest) (slot : Bool) {actions : List (HitlActionRequest × Bool)}
    {candidates : List HitlToolCallCandidate}
    (searches : ∀ index, Computes good (search index (candidates.drop index))
      fun solutions => Sample 2 solutions (projections actions (candidates.drop index)))
    (index : Nat) {later : List HitlToolCallCandidate} (suffix : later = candidates.drop index)
    {solutions : List (List String)} {covered : Set (List String)}
    (sample : Sample 2 solutions covered) :
    Computes good (projectedLoop search action slot index later solutions) fun solutions =>
      Sample 2 solutions (covered ∪ projections ((action, slot) :: actions) later) := by
  induction later generalizing index solutions covered with
  | nil =>
    have none : projections ((action, slot) :: actions) [] = ∅ := by
      ext result
      simp [projections]
    rw [none, Set.union_empty]
    exact Computes.pure sample
  | cons candidate later ih =>
    have next : later = candidates.drop (index + 1) := by
      rw [← List.tail_drop, ← suffix, List.tail_cons]
    rw [projections_cons_cons]
    by_cases accepted : accepts action candidate = true
    · simp only [projectedLoop, accepted, if_true]
      refine Computes.bind (next ▸ searches (index + 1)) fun suffixes suffixSample => ?_
      obtain ⟨kept, full⟩ := sample.keptUpTo (suffixes.map (contribute candidate slot))
      have widened := kept.widen
        (suffixSample.map (contribute_injective candidate slot))
      rw [← Set.union_assoc]
      change Computes good (if (keepUpTo 2 solutions (suffixes.map (contribute candidate slot))).2
        then pure (keepUpTo 2 solutions (suffixes.map (contribute candidate slot))).1
        else projectedLoop search action slot (index + 1) later
          (keepUpTo 2 solutions (suffixes.map (contribute candidate slot))).1) _
      split
      · next stopped =>
          exact Computes.pure (widened.of_full (full stopped) Set.subset_union_left)
      · exact ih (index + 1) next widened
    · simpa [projectedLoop, accepted] using ih (index + 1) next sample

/-- The cached search samples the matches from its action and candidate on. -/
theorem projectedSearch_computes (actions : List (HitlActionRequest × Bool))
    (candidates : List HitlToolCallCandidate) (actionIndex : Nat)
    {rest : List (HitlActionRequest × Bool)} (suffix : rest = actions.drop actionIndex)
    (candidateIndex : Nat) :
    Computes (CachedSample actions candidates)
      (projectedSearch actionIndex rest candidateIndex (candidates.drop candidateIndex))
      fun solutions => Sample 2 solutions (projections rest (candidates.drop candidateIndex)) := by
  rw [cachedSample_eq suffix]
  induction rest generalizing actionIndex candidateIndex with
  | nil =>
    refine Computes.lookup (Computes.pure ?_)
    rw [← cachedSample_eq suffix]
    have only : projections [] (candidates.drop candidateIndex) = {[]} := by
      ext result
      simp [projections, projectIds]
    rw [only]
    exact .singleton []
  | cons slotted rest ih =>
    obtain ⟨action, slot⟩ := slotted
    have next : rest = actions.drop (actionIndex + 1) := by
      rw [← List.tail_drop, ← suffix, List.tail_cons]
    have loop := projectedLoop_computes action slot
      (fun index => cachedSample_eq next ▸ ih (actionIndex + 1) next index) candidateIndex rfl
      .empty
    rw [Set.empty_union, cachedSample_eq suffix] at loop
    exact Computes.lookup loop

theorem orderedProjectedMatches_sample (actions : List HitlActionRequest)
    (candidates : List HitlToolCallCandidate) (slots : List Bool) :
    Sample 2 (orderedProjectedMatches actions candidates slots)
      (projections (actions.zip slots) candidates) :=
  (projectedSearch_computes (actions.zip slots) candidates 0 rfl 0 Dict.empty Dict.keeps_empty).1

/-- The loop over the messages samples their projections. -/
theorem singleGroupSolutions_sample (actions : List HitlActionRequest) (slots : List Bool)
    (candidateMessages : List (List HitlToolCallCandidate)) {solutions : List (List (List String))}
    {covered : Set (List (List String))} (sample : Sample 2 solutions covered) :
    Sample 2 (singleGroupSolutions actions slots candidateMessages solutions)
      (covered ∪ {result | ∃ candidates ∈ candidateMessages,
        ∃ ids ∈ projections (actions.zip slots) candidates, result = [ids]}) := by
  induction candidateMessages generalizing solutions covered with
  | nil => simpa [singleGroupSolutions] using sample
  | cons candidates messages ih =>
    have injective : (fun ids : List String => [ids]).Injective := List.singleton_injective
    obtain ⟨kept, full⟩ := sample.keptUpTo
      ((orderedProjectedMatches actions candidates slots).map fun ids => [ids])
    have widened := kept.widen
      ((orderedProjectedMatches_sample actions candidates slots).map injective)
    have split : {result | ∃ message ∈ candidates :: messages,
        ∃ ids ∈ projections (actions.zip slots) message, result = [ids]} =
        (fun ids => [ids]) '' projections (actions.zip slots) candidates ∪
          {result | ∃ message ∈ messages,
            ∃ ids ∈ projections (actions.zip slots) message, result = [ids]} := by
      ext result
      simp [eq_comm]
    rw [split, ← Set.union_assoc]
    simp only [singleGroupSolutions]
    by_cases stopped : (keepUpTo 2 solutions
        ((orderedProjectedMatches actions candidates slots).map fun ids => [ids])).2 = true
    · rw [if_pos stopped]
      exact widened.of_full (full stopped) Set.subset_union_left
    · rw [if_neg stopped]
      exact ih widened

theorem selects_zip {accepted : HitlActionRequest → HitlToolCallCandidate → Bool}
    {actions : List HitlActionRequest} {slots : List Bool}
    {candidates selection : List HitlToolCallCandidate} (fit : actions.length = slots.length) :
    Selects (fun slotted => accepted slotted.1) (actions.zip slots) candidates selection ↔
      Selects accepted actions candidates selection := by
  have first : (actions.zip slots).map Prod.fst = actions := List.map_fst_zip fit.le
  unfold Selects
  conv_rhs => rw [← first, List.forall₂_map_left_iff]

/-- With distinct identifiers the assignments of one group are the selections of one message. -/
theorem assignmentResults_single {actions : List HitlActionRequest} {slots : List Bool}
    {candidateMessages : List (List HitlToolCallCandidate)}
    (distinct : (candidateMessages.flatten.map HitlToolCallCandidate.toolCallId).Nodup)
    (fit : actions.length = slots.length) :
    assignmentResults (some [slots]) [actions] candidateMessages =
      {result | ∃ candidates ∈ candidateMessages,
        ∃ ids ∈ projections (actions.zip slots) candidates, result = [ids]} := by
  have second : (actions.zip slots).map Prod.snd = slots := List.map_snd_zip fit.ge
  ext result
  simp only [assignmentResults, assigns_cons, assigns_nil, projections, selects_zip fit, second,
    Set.mem_ofPred_eq]
  constructor
  · rintro ⟨_, ⟨candidates, member, selection, selects, -, _, ⟨rfl, -⟩, rfl⟩, rfl⟩
    exact ⟨candidates, member, _, ⟨selection, selects, rfl⟩, rfl⟩
  · rintro ⟨candidates, member, _, ⟨selection, selects, rfl⟩, rfl⟩
    have inside : selection.Sublist candidateMessages.flatten :=
      selects.1.trans (List.sublist_flatten_of_mem member)
    have fresh : ([] ++ selection.map HitlToolCallCandidate.toolCallId).Nodup :=
      distinct.sublist (inside.map _)
    exact ⟨[selection], ⟨candidates, member, selection, selects, fresh, [], ⟨rfl, fresh⟩, rfl⟩, rfl⟩

theorem projectIds_all {β : Type} (callIds : List String) (actions : List β)
    (fit : callIds.length = actions.length) :
    projectIds callIds (actions.map fun _ => true) = callIds := by
  induction callIds generalizing actions with
  | nil => rfl
  | cons callId callIds ih =>
    cases actions with
    | nil => simp at fit
    | cons action actions =>
      have rest := ih actions (by simpa using fit)
      simpa [projectIds] using rest

theorem assignmentResults_unmasked {actions : List HitlActionRequest}
    {candidateMessages : List (List HitlToolCallCandidate)} :
    assignmentResults none [actions] candidateMessages =
      assignmentResults (some [actions.map fun _ => true]) [actions] candidateMessages := by
  ext result
  simp only [assignmentResults, Set.mem_ofPred_eq]
  refine exists_congr fun chosen => and_congr_right fun assigns => ?_
  obtain ⟨_, -, selection, selects, -, _, rest, rfl⟩ := assigns_cons.mp assigns
  obtain ⟨rfl, -⟩ := assigns_nil.mp rest
  have fit : (selection.map HitlToolCallCandidate.toolCallId).length = actions.length := by
    simpa using selects.2.length_eq.symm
  change _ = [_] ↔ _ = [projectIds _ (actions.map fun _ => true)]
  rw [projectIds_all _ actions fit]

/-! ## Malformed candidates -/

/-- A search finds one of some candidates, and none only where there is none. -/
def Finds (results : Set HitlToolCallCandidate)
    (search : EStateM HitlError Nat (Option HitlToolCallCandidate)) : Prop :=
  ∀ before, search.Ensures before
    (fun found _ => match found with
      | some candidate => candidate ∈ results
      | none => results = ∅)
    fun error _ => error = .relevanceBudget

theorem countRelevanceStep_ensures (before : Nat) :
    countRelevanceStep.Ensures before (fun _ _ => True)
      fun error _ => error = .relevanceBudget := by
  simp only [countRelevanceStep, EStateM.ensures_bind, EStateM.ensures_modify, EStateM.ensures_get]
  exact EStateM.ensures_guard.mpr ⟨fun _ => rfl, fun _ => trivial⟩

theorem finds_exploration : Exploration countRelevanceStep Finds where
  idle _ := rfl
  counted := by
    intro results search finds before
    refine EStateM.ensures_bind.mpr ((countRelevanceStep_ensures before).mono ?_ fun _ _ => id)
    exact fun _ after _ => finds after
  andThen := by
    intro left right first second here there before
    refine EStateM.ensures_bind.mpr ((here before).mono ?_ fun _ _ => id)
    rintro (_ | candidate) after found
    · refine (there after).mono ?_ fun _ _ => id
      rintro (_ | candidate) _ other
      · exact Set.union_empty_iff.mpr ⟨found, other⟩
      · exact .inr other
    · exact .inl found

/-- The malformed calls that the remaining assignments use first. -/
def remainingMalformed (candidateMessages : List (List HitlToolCallCandidate))
    (groups : List (List HitlActionRequest)) (used : List String)
    (firstMalformed : Option HitlToolCallCandidate) : Set HitlToolCallCandidate :=
  {candidate | ∃ rest, Assigns acceptsMalformed candidateMessages used groups rest ∧
    (firstMalformed <|> rest.flatten.find? isMalformed) = some candidate}

theorem remainingMalformed_cons {candidateMessages : List (List HitlToolCallCandidate)}
    {actions : List HitlActionRequest} {groups : List (List HitlActionRequest)}
    {used : List String} {firstMalformed : Option HitlToolCallCandidate} :
    remainingMalformed candidateMessages (actions :: groups) used firstMalformed =
      {candidate | ∃ candidates ∈ candidateMessages, ∃ selection,
        Selects acceptsMalformed actions candidates selection ∧ Fresh used selection ∧
          candidate ∈ remainingMalformed candidateMessages groups
            (used ++ selection.map HitlToolCallCandidate.toolCallId)
            (firstMalformed <|> selection.find? isMalformed)} := by
  have regroup (selection : List HitlToolCallCandidate) (rest : List (List HitlToolCallCandidate)) :
      (firstMalformed <|> (selection :: rest).flatten.find? isMalformed) =
        ((firstMalformed <|> selection.find? isMalformed) <|> rest.flatten.find? isMalformed) := by
    simp [List.find?_append, Option.or_assoc]
  ext candidate
  simp only [remainingMalformed, Set.mem_ofPred_eq, assigns_cons]
  constructor
  · rintro ⟨_, ⟨candidates, member, selection, selects, fresh, rest, assigns, rfl⟩, first⟩
    exact ⟨candidates, member, selection, selects, fresh, rest, assigns, regroup _ _ ▸ first⟩
  · rintro ⟨candidates, member, selection, selects, fresh, rest, assigns, first⟩
    exact ⟨_, ⟨candidates, member, selection, selects, fresh, rest, assigns, rfl⟩,
      (regroup _ _).trans first⟩

/-- Assigning the remaining groups finds the first malformed call of some assignment. -/
theorem assignMalformed_finds (candidateMessages : List (List HitlToolCallCandidate))
    (groups : List (List HitlActionRequest)) {used : List String}
    (firstMalformed : Option HitlToolCallCandidate) (distinct : used.Nodup) :
    Finds (remainingMalformed candidateMessages groups used firstMalformed)
      (assignMalformed candidateMessages groups used firstMalformed) := by
  induction groups generalizing used firstMalformed with
  | nil =>
    refine finds_exploration.counted fun before => ?_
    cases firstMalformed <;> simp [remainingMalformed, assigns_nil, distinct]
  | cons actions groups ih =>
    refine finds_exploration.counted ?_
    rw [remainingMalformed_cons]
    refine messages_cover finds_exploration candidateMessages actions
      (fun selection => {candidate | Fresh used selection ∧
        candidate ∈ remainingMalformed candidateMessages groups
          (used ++ selection.map HitlToolCallCandidate.toolCallId)
          (firstMalformed <|> selection.find? isMalformed)}) fun selection before => ?_
    refine EStateM.ensures_ite.mpr ⟨fun taken => ?_, fun free => ?_⟩
    · have none : ¬Fresh used selection := fun fresh => (fresh_iff distinct).mp fresh taken
      simp [none]
    · have fresh : Fresh used selection := (fresh_iff distinct).mpr free
      simpa [fresh] using ih (firstMalformed <|> selection.find? isMalformed) fresh before

/-- The relevance search answers with a malformed call of an assignment, if one has any. -/
theorem relevantMalformed_cases (actionGroups : List (List HitlActionRequest))
    (candidateMessages : List (List HitlToolCallCandidate)) :
    (∃ candidate, relevantMalformedHitlCandidate actionGroups candidateMessages =
        .ok (some candidate) ∧
      ∃ chosen, Assigns acceptsMalformed candidateMessages [] actionGroups chosen ∧
        candidate ∈ chosen.flatten ∧ isMalformed candidate = true) ∨
    (relevantMalformedHitlCandidate actionGroups candidateMessages = .ok none ∧
      ∀ chosen, Assigns acceptsMalformed candidateMessages [] actionGroups chosen →
        ∀ candidate ∈ chosen.flatten, isMalformed candidate = false) ∨
    relevantMalformedHitlCandidate actionGroups candidateMessages = .error .relevanceBudget := by
  by_cases idle : actionGroups = [] ∨ candidateMessages = []
  · refine .inr (.inl ⟨if_pos idle, fun chosen assigns => ?_⟩)
    obtain rfl | rfl := idle
    · obtain ⟨rfl, -⟩ := assigns_nil.mp assigns
      simp
    · cases actionGroups with
      | nil =>
        obtain ⟨rfl, -⟩ := assigns_nil.mp assigns
        simp
      | cons actions groups => simp [assigns_cons] at assigns
  · have finds := assignMalformed_finds candidateMessages actionGroups none List.nodup_nil 0
    unfold relevantMalformedHitlCandidate EStateM.outcome
    rw [if_neg idle]
    cases outcome : (assignMalformed candidateMessages actionGroups [] none).run 0 with
    | error error _ =>
      exact .inr (.inr (congrArg Except.error (finds.of_error outcome)))
    | ok answer _ =>
      have found := finds.of_ok outcome
      cases answer with
      | some candidate =>
        obtain ⟨chosen, assigns, first⟩ := found
        have first : chosen.flatten.find? isMalformed = some candidate := by simpa using first
        exact .inl ⟨candidate, rfl, chosen, assigns, List.mem_of_find?_eq_some first,
          List.find?_some first⟩
      | none =>
        refine .inr (.inl ⟨rfl, fun chosen assigns candidate member => ?_⟩)
        by_contra malformed
        have some? : (chosen.flatten.find? isMalformed).isSome := by
          rw [List.find?_isSome]
          exact ⟨candidate, member, by simpa using malformed⟩
        obtain ⟨first, found?⟩ := Option.isSome_iff_exists.mp some?
        have held : first ∈ remainingMalformed candidateMessages actionGroups [] none :=
          ⟨chosen, assigns, by simpa using found?⟩
        exact (found ▸ held : first ∈ (∅ : Set HitlToolCallCandidate))

/-! ## The result -/

/-- The mask, if there is one, has a slot for every action of every group. -/
def SlotsFit (actionGroups : List (List HitlActionRequest))
    (selectedSlots : Option (List (List Bool))) : Prop :=
  ∀ slots, selectedSlots = some slots →
    List.Forall₂ (fun actions mask => actions.length = mask.length) actionGroups slots

section Result

variable {actionGroups : List (List HitlActionRequest)}
  {candidateMessages : List (List HitlToolCallCandidate)}
  {selectedSlots : Option (List (List Bool))}

theorem checkSlots_of_fit (fit : SlotsFit actionGroups selectedSlots) :
    checkSlots actionGroups selectedSlots = .ok ⟨⟩ := by
  cases selectedSlots with
  | none => rfl
  | some slots =>
    have fit := fit slots rfl
    have pairs : ¬(actionGroups.zip slots).any
        (fun pair => pair.1.length ≠ pair.2.length) = true := by
      simp only [List.any_eq_true, not_exists, not_and, decide_eq_true_eq, not_not]
      exact fun pair member => (List.forall₂_iff_zip.mp fit).2 member
    rw [checkSlots, if_neg (not_not.mpr fit.length_eq), if_neg pairs]

/-- Both searches sample the same assignments; only the exhaustive one has a budget. -/
theorem searchSolutions_sample
    (distinct : (candidateMessages.flatten.map HitlToolCallCandidate.toolCallId).Nodup)
    (fit : SlotsFit actionGroups selectedSlots) :
    (∃ solutions, searchSolutions actionGroups candidateMessages selectedSlots = .ok solutions ∧
      Sample 2 solutions (assignmentResults selectedSlots actionGroups candidateMessages)) ∨
    actionGroups.length ≠ 1 ∧
      searchSolutions actionGroups candidateMessages selectedSlots = .error .searchBudget := by
  match actionGroups with
  | [actions] =>
    refine .inl ⟨_, rfl, ?_⟩
    have single (slots : List Bool) (fit : actions.length = slots.length) :
        Sample 2 (singleGroupSolutions actions slots candidateMessages [])
          (assignmentResults (some [slots]) [actions] candidateMessages) := by
      have sampled := singleGroupSolutions_sample actions slots candidateMessages .empty
      rwa [Set.empty_union, ← assignmentResults_single distinct fit] at sampled
    cases selectedSlots with
    | none =>
      rw [assignmentResults_unmasked]
      exact single _ (by simp)
    | some slots =>
      cases fit slots rfl with
      | cons here rest =>
        cases rest
        exact single _ here
  | [] =>
    rw [searchSolutions]
    · exact multiGroupSolutions_sample.imp id fun spent => ⟨by simp, spent⟩
    · simp
  | _ :: _ :: _ =>
    rw [searchSolutions]
    · exact multiGroupSolutions_sample.imp id fun spent => ⟨by simp, spent⟩
    · simp

/-- The answer is decided by the number of results, or the budget is spent. -/
theorem matchHitlActionGroups_cases (someGroup : actionGroups ≠ [])
    (someActions : ∀ group ∈ actionGroups, group ≠ [])
    (distinct : (candidateMessages.flatten.map HitlToolCallCandidate.toolCallId).Nodup)
    (fit : SlotsFit actionGroups selectedSlots) :
    (∃ solutions, Sample 2 solutions
        (assignmentResults selectedSlots actionGroups candidateMessages) ∧
      (matchHitlActionGroups actionGroups candidateMessages selectedSlots =
          settleSolutions solutions ∨
        solutions = [] ∧ matchHitlActionGroups actionGroups candidateMessages selectedSlots =
          .error .noToolCalls)) ∨
    actionGroups.length ≠ 1 ∧ matchHitlActionGroups actionGroups candidateMessages selectedSlots =
      .error .searchBudget := by
  have filled : ¬(actionGroups = [] ∨ ∃ group ∈ actionGroups, group = []) := by
    rintro (none | ⟨group, member, empty⟩)
    · exact someGroup none
    · exact someActions group member empty
  by_cases noCalls : candidateMessages = []
  · subst noCalls
    refine .inl ⟨[], ?_, .inr ⟨rfl, by rw [matchHitlActionGroups, if_neg filled, if_pos rfl]⟩⟩
    have none : assignmentResults selectedSlots actionGroups [] = ∅ := by
      obtain ⟨actions, groups, rfl⟩ := List.exists_cons_of_ne_nil someGroup
      ext result
      simp [assignmentResults, assigns_cons]
    rw [none]
    exact .empty
  · have entered : matchHitlActionGroups actionGroups candidateMessages selectedSlots =
        searchSolutions actionGroups candidateMessages selectedSlots >>= settleSolutions := by
      rw [matchHitlActionGroups, if_neg filled, if_neg noCalls, checkSlots_of_fit fit]
      rfl
    rw [entered]
    obtain ⟨solutions, found, sample⟩ | ⟨several, spent⟩ := searchSolutions_sample distinct fit
    · exact .inl ⟨solutions, sample, .inl (by rw [found]; rfl)⟩
    · exact .inr ⟨several, by rw [spent]; rfl⟩

end Result

/-- A review of one call, with another call of the same tool in front of it. -/
def reviewedAction : HitlActionRequest where
  name := "send"
  args := [("to", .string "ada")]

def reviewCandidates : List HitlToolCallCandidate :=
  [{ graphNamespace := [], toolCallId := "a", toolName := "send", parentMessageId := "m",
     position := 0, arguments := .object [("to", .string "bob")], argumentsError := none },
   { graphNamespace := [], toolCallId := "b", toolName := "send", parentMessageId := "m",
     position := 1, arguments := .object [("to", .string "ada")], argumentsError := none }]

example : matchHitlActionGroups [[reviewedAction]] [reviewCandidates] none = .ok [["b"]] := by rfl

end Tinkerfin.Agui
