import Tinkerfin.Automation.DueInstants

/-!
# Compiled cron fields

The values of a compiled field are distinct, sorted and inside the range of the field, so the wall
times of a day come out in order.
-/

namespace Tinkerfin.Automation

/-! ## Fields -/

/-- Values of a field in order and inside its range. -/
structure FieldValues (minimum maximum : Nat) (values : List Nat) : Prop where
  sorted : values.Pairwise (· < ·)
  above : ∀ value ∈ values, minimum ≤ value
  below : ∀ value ∈ values, value ≤ maximum

section Fields

variable {minimum maximum value : Nat} {names : List (String × Nat)} {text : String}
  {chars : List Char} {values : List Nat}

/-- The names of a field stand for values of its range. -/
def NamesInside (minimum maximum : Nat) (names : List (String × Nat)) : Prop :=
  ∀ entry ∈ names, minimum ≤ entry.2 ∧ entry.2 ≤ maximum

theorem lookup_inside (inside : NamesInside minimum maximum names)
    (found : names.lookup text = some value) : minimum ≤ value ∧ value ≤ maximum := by
  induction names with
  | nil => cases found
  | cons entry names induction =>
    rw [List.lookup_cons] at found
    split at found
    · obtain rfl := Option.some.inj found
      exact inside entry List.mem_cons_self
    · exact induction (fun other member => inside other (.tail _ member)) found

theorem parseValue_inside (inside : NamesInside minimum maximum names)
    (parsed : parseValue text minimum maximum names = .ok value) :
    minimum ≤ value ∧ value ≤ maximum := by
  unfold parseValue at parsed
  simp only at parsed
  split at parsed
  · next named found =>
      obtain rfl := Except.ok.inj parsed
      exact lookup_inside inside found
  · split at parsed
    · cases parsed
    · next number found =>
        split at parsed
        · next range =>
            obtain rfl := Except.ok.inj parsed
            omega
        · cases parsed

theorem parseRange_inside (inside : NamesInside minimum maximum names) {start stop : Nat}
    (parsed : parseRange chars minimum maximum names = .ok (start, stop)) :
    minimum ≤ start ∧ stop ≤ maximum := by
  unfold parseRange at parsed
  split at parsed
  · obtain ⟨rfl, rfl⟩ := Prod.mk.inj (Except.ok.inj parsed)
    exact ⟨le_rfl, le_rfl⟩
  · split at parsed
    · simp only [bind, Except.bind] at parsed
      split at parsed
      · cases parsed
      · next first parsedFirst =>
          split at parsed
          · cases parsed
          · next last parsedLast =>
              split at parsed
              · cases parsed
              · obtain ⟨rfl, rfl⟩ := Prod.mk.inj (Except.ok.inj parsed)
                exact ⟨(parseValue_inside inside parsedFirst).1,
                  (parseValue_inside inside parsedLast).2⟩
    · simp only [bind, Except.bind] at parsed
      split at parsed
      · cases parsed
      · next only parsedOnly =>
          obtain ⟨rfl, rfl⟩ := Prod.mk.inj (Except.ok.inj parsed)
          exact parseValue_inside inside parsedOnly

theorem parseItem_inside (inside : NamesInside minimum maximum names)
    (parsed : parseItem chars minimum maximum names = .ok values) :
    ∀ value ∈ values, minimum ≤ value ∧ value ≤ maximum := by
  unfold parseItem at parsed
  simp only [bind, Except.bind] at parsed
  split at parsed
  · cases parsed
  · split at parsed
    · cases parsed
    · next step parsedStep =>
        split at parsed
        · cases parsed
        · next range parsedRange =>
            obtain ⟨start, stop⟩ := range
            obtain rfl := Except.ok.inj parsed
            obtain ⟨above, below⟩ := parseRange_inside inside parsedRange
            intro value member
            have listed := List.mem_range'_1.mp (List.mem_of_mem_filter member)
            omega

theorem mapM_inside {texts : List (List Char)} {lists : List (List Nat)}
    (inside : NamesInside minimum maximum names)
    (parsed : texts.mapM (fun text => parseItem text minimum maximum names) = .ok lists) :
    ∀ value ∈ lists.flatten, minimum ≤ value ∧ value ≤ maximum := by
  induction texts generalizing lists with
  | nil =>
    obtain rfl := Except.ok.inj parsed
    simp
  | cons text texts induction =>
    rw [List.mapM_cons] at parsed
    simp only [bind, Except.bind] at parsed
    split at parsed
    · cases parsed
    · next values parsedItem =>
        split at parsed
        · cases parsed
        · next rest parsedRest =>
            obtain rfl := Except.ok.inj parsed
            intro value member
            rw [List.flatten_cons, List.mem_append] at member
            rcases member with here | there
            · exact parseItem_inside inside parsedItem value here
            · exact induction parsedRest value there

theorem parseField_values (inside : NamesInside minimum maximum names)
    (parsed : parseField chars minimum maximum names = .ok values) :
    FieldValues minimum maximum values := by
  unfold parseField at parsed
  simp only [bind, Except.bind] at parsed
  split at parsed
  · cases parsed
  · next lists parsedItems =>
      obtain rfl := Except.ok.inj parsed
      have bounds := mapM_inside inside parsedItems
      have member (value : Nat) :
          value ∈ lists.flatten.dedup.insertionSort (· ≤ ·) → value ∈ lists.flatten := by
        rw [List.mem_insertionSort, List.mem_dedup]
        exact id
      refine ⟨?_, fun value listed => (bounds value (member value listed)).1,
        fun value listed => (bounds value (member value listed)).2⟩
      have sorted := List.pairwise_insertionSort (· ≤ ·) lists.flatten.dedup
      have distinct : (lists.flatten.dedup.insertionSort (· ≤ ·)).Nodup :=
        (List.perm_insertionSort _ _).nodup_iff.mpr (List.nodup_dedup _)
      exact sorted.imp₂ (fun _ _ below different => lt_of_le_of_ne below different) distinct

end Fields

/-- The fields that the search goes through are in order and inside their ranges. -/
structure CompiledCron.Ordered (compiled : CompiledCron) : Prop where
  minutes : FieldValues 0 59 compiled.minutes
  hours : FieldValues 0 23 compiled.hours

theorem compileCron_ordered {expression : String} {compiled : CompiledCron}
    (outcome : compileCron expression = .ok compiled) : compiled.Ordered := by
  unfold compileCron at outcome
  split at outcome
  · simp only [bind, Except.bind] at outcome
    split at outcome
    · cases outcome
    · next minutes parsedMinutes =>
        split at outcome
        · cases outcome
        · next hours parsedHours =>
            have ordered : FieldValues 0 59 minutes ∧ FieldValues 0 23 hours :=
              ⟨parseField_values (by simp [NamesInside]) parsedMinutes,
                parseField_values (by simp [NamesInside]) parsedHours⟩
            split at outcome
            · cases outcome
            · split at outcome
              · cases outcome
              · split at outcome
                · cases outcome
                · obtain rfl := Except.ok.inj outcome
                  exact ⟨ordered.1, ordered.2⟩
  · cases outcome

end Tinkerfin.Automation
