import Tinkerfin.Agui.RootState
import Tinkerfin.Lib.Exploration
import Tinkerfin.Lib.Stateful

/-!
# Correlation of tool reviews

An interrupt carries the actions under review without their Tool-call identifiers.  The adapter
finds the identifiers by matching every group of actions with calls of one message, in order, and
accepts only a unique assignment.
-/

namespace Tinkerfin.Agui

/-! ## Actions and candidates -/

/-- One ordered action awaiting human review. -/
structure HitlActionRequest where
  name : String
  args : List (String × Json)

/-- Where and why the arguments of a call are no JSON. -/
structure JSONDecodeError where
  msg : String
  doc : String
  pos : Nat

/-- One position-preserving Tool call considered for correlation. -/
structure HitlToolCallCandidate where
  graphNamespace : List String
  toolCallId : String
  toolName : String
  parentMessageId : String
  position : Nat
  arguments : Json
  argumentsError : Option JSONDecodeError

/-- Why no assignment is returned. -/
inductive HitlError
  | emptyGroups
  | noToolCalls
  | slotGroups
  | slotActions
  | searchBudget
  | ambiguous
  | noMatch
  | relevanceBudget
deriving DecidableEq

/-- The errors of the class `HitlNoMatchError`. -/
def HitlError.isNoMatch : HitlError → Bool
  | noToolCalls | noMatch => true
  | _ => false

def maxMultiGroupSearchStates : Nat := 100000

/-- A call whose arguments are no JSON. -/
def isMalformed (candidate : HitlToolCallCandidate) : Bool := candidate.argumentsError.isSome

/-- A candidate with valid arguments is the call of an action. -/
def accepts (action : HitlActionRequest) (candidate : HitlToolCallCandidate) : Bool :=
  !isMalformed candidate && candidate.toolName = action.name &&
    jsonValuesEqual candidate.arguments (.object action.args)

/-- Malformed arguments match every action of their tool. -/
def acceptsMalformed (action : HitlActionRequest) (candidate : HitlToolCallCandidate) : Bool :=
  candidate.toolName = action.name &&
    (isMalformed candidate || jsonValuesEqual candidate.arguments (.object action.args))

/-! ## One group -/

/-- The solutions of one group from an action and a candidate on. -/
abbrev ProjectedCache := Dict (Nat × Nat) (List (List String))

/-- The candidates of one call from an index on, with the solutions found before. -/
def projectedLoop
    (search : Nat → List HitlToolCallCandidate → StateM ProjectedCache (List (List String)))
    (action : HitlActionRequest) (selectedSlot : Bool) :
    Nat → List HitlToolCallCandidate → List (List String) →
      StateM ProjectedCache (List (List String))
  | _, [], solutions => pure solutions
  | index, candidate :: later, solutions =>
    if accepts action candidate then do
      let suffixes ← search (index + 1) later
      let found := keepUpTo 2 solutions <| suffixes.map fun suffix =>
        if selectedSlot then candidate.toolCallId :: suffix else suffix
      if found.2 then
        pure found.1
      else
        projectedLoop search action selectedSlot (index + 1) later found.1
    else
      projectedLoop search action selectedSlot (index + 1) later solutions

/-- Up to two distinct projections of the matches from an action and a candidate on. -/
def projectedSearch : Nat → List (HitlActionRequest × Bool) → Nat → List HitlToolCallCandidate →
    StateM ProjectedCache (List (List String))
  | actionIndex, [], candidateIndex, _ => cached (actionIndex, candidateIndex) (pure [[]])
  | actionIndex, (action, selectedSlot) :: actions, candidateIndex, candidates =>
    cached (actionIndex, candidateIndex) <|
      projectedLoop (projectedSearch (actionIndex + 1) actions) action selectedSlot
        candidateIndex candidates []

/-- Return up to two distinct selected-ID projections for one action group. -/
def orderedProjectedMatches (actions : List HitlActionRequest)
    (candidates : List HitlToolCallCandidate) (selectedSlots : List Bool) : List (List String) :=
  ((projectedSearch 0 (actions.zip selectedSlots) 0 candidates).run Dict.empty).1

/-- The solutions of a single group over the messages. -/
def singleGroupSolutions (actions : List HitlActionRequest) (slots : List Bool) :
    List (List HitlToolCallCandidate) → List (List (List String)) → List (List (List String))
  | [], solutions => solutions
  | candidates :: messages, solutions =>
    let found := keepUpTo 2 solutions <|
      (orderedProjectedMatches actions candidates slots).map fun ids => [ids]
    if found.2 then found.1 else singleGroupSolutions actions slots messages found.1

/-! ## Several groups -/

/-- The steps counted and the solutions found so far. -/
structure HitlSearch where
  searchStates : Nat
  solutions : List (List (List String))

/-- The identifiers that a mask keeps. -/
def projectIds (callIds : List String) (slots : List Bool) : List String :=
  ((callIds.zip slots).filter Prod.snd).map Prod.fst

/-- A solution behind its optional mask. -/
def projectSolution (projectedSlots : Option (List (List Bool))) (solution : List (List String)) :
    List (List String) :=
  match projectedSlots with
  | none => solution
  | some slots => List.zipWith projectIds solution slots

def countSearchStep : EStateM HitlError HitlSearch PUnit := do
  modify fun search => { search with searchStates := search.searchStates + 1 }
  if maxMultiGroupSearchStates < (← get).searchStates then throw .searchBudget

/-- Assign the groups from one on; two solutions end the search. -/
def assignGroups (projectedSlots : Option (List (List Bool)))
    (candidateMessages : List (List HitlToolCallCandidate)) :
    List (List HitlActionRequest) → List String → List (List String) →
      EStateM HitlError HitlSearch PUnit
  | [], _, selected => do
    if 1 < (← get).solutions.length then
      pure ⟨⟩
    else
      modify fun search =>
        { search with
          solutions := keepNew search.solutions (projectSolution projectedSlots selected) }
  | actions :: groups, usedCallIds, selected => do
    if 1 < (← get).solutions.length then
      pure ⟨⟩
    else
      discard <| candidateMessages.findSomeM? fun candidates =>
        orderedSelections countSearchStep accepts
          (fun selection => do
            let callIds := selection.map HitlToolCallCandidate.toolCallId
            if ¬callIds.Nodup ∨ ∃ callId ∈ callIds, callId ∈ usedCallIds then
              pure none
            else do
              assignGroups projectedSlots candidateMessages groups (usedCallIds ++ callIds)
                (selected ++ [callIds])
              if 1 < (← get).solutions.length then pure (some ()) else pure none)
          actions candidates []

/-- The solutions of the exhaustive search. -/
def multiGroupSolutions (projectedSlots : Option (List (List Bool)))
    (actionGroups : List (List HitlActionRequest))
    (candidateMessages : List (List HitlToolCallCandidate)) :
    Except HitlError (List (List (List String))) :=
  match (assignGroups projectedSlots candidateMessages actionGroups [] []).run ⟨0, []⟩ with
  | .ok _ search => .ok search.solutions
  | .error error _ => .error error

/-- The mask, if there is one, has one slot for every action. -/
def checkSlots (actionGroups : List (List HitlActionRequest)) :
    Option (List (List Bool)) → Except HitlError PUnit
  | none => .ok ⟨⟩
  | some slots =>
    if actionGroups.length ≠ slots.length then
      .error .slotGroups
    else if (actionGroups.zip slots).any fun pair => pair.1.length ≠ pair.2.length then
      .error .slotActions
    else
      .ok ⟨⟩

/-- Up to two solutions of the groups. -/
def searchSolutions (actionGroups : List (List HitlActionRequest))
    (candidateMessages : List (List HitlToolCallCandidate))
    (projectedSlots : Option (List (List Bool))) : Except HitlError (List (List (List String))) :=
  match actionGroups with
  | [actions] =>
    let slots := match projectedSlots with
      | some slots => slots.headD []
      | none => actions.map fun _ => true
    .ok (singleGroupSolutions actions slots candidateMessages [])
  | _ => multiGroupSolutions projectedSlots actionGroups candidateMessages

/-- The only solution, or what is wrong with their number. -/
def settleSolutions : List (List (List String)) → Except HitlError (List (List String))
  | [] => .error .noMatch
  | [solution] => .ok solution
  | _ :: _ :: _ => .error .ambiguous

/-- Assign every native HITL group to one unique candidate message. -/
def matchHitlActionGroups (actionGroups : List (List HitlActionRequest))
    (candidateMessages : List (List HitlToolCallCandidate))
    (selectedSlots : Option (List (List Bool))) : Except HitlError (List (List String)) :=
  if actionGroups = [] ∨ ∃ group ∈ actionGroups, group = [] then
    .error .emptyGroups
  else if candidateMessages = [] then
    .error .noToolCalls
  else do
    checkSlots actionGroups selectedSlots
    let solutions ← searchSolutions actionGroups candidateMessages selectedSlots
    settleSolutions solutions

/-! ## Malformed candidates -/

def countRelevanceStep : EStateM HitlError Nat PUnit := do
  modify fun searchStates => searchStates + 1
  if maxMultiGroupSearchStates < (← get) then throw .relevanceBudget

/-- Assign the groups from one on, remembering the first malformed call. -/
def assignMalformed (candidateMessages : List (List HitlToolCallCandidate)) :
    List (List HitlActionRequest) → List String → Option HitlToolCallCandidate →
      EStateM HitlError Nat (Option HitlToolCallCandidate)
  | [], _, firstMalformed => do
    countRelevanceStep
    pure firstMalformed
  | actions :: groups, usedCallIds, firstMalformed => do
    countRelevanceStep
    candidateMessages.findSomeM? fun candidates =>
      orderedSelections countRelevanceStep acceptsMalformed
        (fun selected => do
          let callIds := selected.map HitlToolCallCandidate.toolCallId
          if ¬callIds.Nodup ∨ ∃ callId ∈ callIds, callId ∈ usedCallIds then
            pure none
          else
            assignMalformed candidateMessages groups (usedCallIds ++ callIds)
              (firstMalformed <|> selected.find? isMalformed))
        actions candidates []

/-- Return malformed arguments that can participate in a complete assignment. -/
def relevantMalformedHitlCandidate (actionGroups : List (List HitlActionRequest))
    (candidateMessages : List (List HitlToolCallCandidate)) :
    Except HitlError (Option HitlToolCallCandidate) :=
  if actionGroups = [] ∨ candidateMessages = [] then
    .ok none
  else
    (assignMalformed candidateMessages actionGroups [] none).outcome 0

end Tinkerfin.Agui
