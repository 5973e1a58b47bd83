import EventSchema.Inheritance
import EventSchema.Proofs.OrderedMap
import Mathlib.Data.List.Chain

namespace EventSchema
namespace Inheritance

/-!
# Ancestry

The references of a hierarchy lead each declared name to at most one parent,
which need not be declared.  Walking up from a name therefore has one of three
ends: a descriptor without a parent, a parent that is not declared, or a name
that the walk has passed before.  `Lineage` describes the first end and
`Obstacle` the other two, together with the failure that each of them means.

Nothing here refers to the order in which descriptors are flattened.  That the
ends exclude one another, and that each is reached in one way only, follows from
the references being a partial function: walks from one name are prefixes of
one another, and a set of names closed under its references is never left.
-/

variable {δ : Type} {declared : Hierarchy δ}

/-- The named descriptor is declared and extends the parent. -/
def Extends (declared : Hierarchy δ) (name parent : Text) : Prop :=
  ∃ descriptor, declared.get? name = some descriptor ∧ descriptor.parent = some parent

theorem Extends.unique {name first second : Text} (one : Extends declared name first)
    (other : Extends declared name second) : first = second := by
  rcases one with ⟨descriptor, found, parent⟩
  rcases other with ⟨same, again, next⟩
  cases found.symm.trans again
  exact Option.some.inj (parent.symm.trans next)

theorem Extends.mem_keys {name parent : Text} (step : Extends declared name parent) :
    name ∈ declared.keys := by
  rcases step with ⟨descriptor, found, _⟩
  exact OrderedMap.mem_keys_of_get?_eq_some found

/-- The descriptors that are met from a name up to one without a parent, the
nearest first. -/
inductive Lineage (declared : Hierarchy δ) : (name : Text) -> List (Descriptor δ) -> Prop where
  | root {name : Text} {descriptor : Descriptor δ}
      (found : declared.get? name = some descriptor) (last : descriptor.parent = none) :
      Lineage declared name [descriptor]
  | child {name parent : Text} {descriptor : Descriptor δ} {above : List (Descriptor δ)}
      (found : declared.get? name = some descriptor) (next : descriptor.parent = some parent)
      (rest : Lineage declared parent above) :
      Lineage declared name (descriptor :: above)

/-- A walk upwards: the names that are passed from a start on, each extending the
next. -/
structure Walk (declared : Hierarchy δ) (start : Text) (names : List Text) : Prop where
  starts : names.head? = some start
  climbs : names.IsChain (Extends declared)

/-- The two ways in which an ascent fails, with the failure that reports it.  A
walk reaches a name whose parent is not declared, or it returns for the first
time to a name that it has passed; the part before that name is not reported. -/
inductive Obstacle (kind : DescriptorKind) (declared : Hierarchy δ) (start : Text) :
    Failure -> Prop where
  | undefined (way : List Text) (last parent : Text)
      (walk : Walk declared start (way ++ [last, parent])) (missing : parent ∉ declared.keys) :
      Obstacle kind declared start (.undefinedParent kind last parent)
  | cycle (tail : List Text) (again : Text) (loop : List Text)
      (walk : Walk declared start (tail ++ again :: loop ++ [again]))
      (first : (tail ++ again :: loop).Nodup) :
      Obstacle kind declared start (.cyclicParents kind (again :: loop ++ [again]))

/-! ## Lineages -/

theorem Lineage.mem_keys {name : Text} {chain : List (Descriptor δ)}
    (lineage : Lineage declared name chain) : name ∈ declared.keys := by
  cases lineage with
  | root found _ => exact OrderedMap.mem_keys_of_get?_eq_some found
  | child found _ _ => exact OrderedMap.mem_keys_of_get?_eq_some found

/-- All descriptors of a lineage are declared. -/
theorem Lineage.exists_entry {name : Text} {chain : List (Descriptor δ)}
    (lineage : Lineage declared name chain) :
    ∀ descriptor ∈ chain, ∃ other, (other, descriptor) ∈ declared := by
  induction lineage with
  | root found _ =>
      intro descriptor member
      cases List.mem_singleton.1 member
      exact ⟨_, OrderedMap.mem_of_get?_eq_some found⟩
  | child found _ _ ih =>
      intro descriptor member
      rcases List.mem_cons.1 member with rfl | upper
      · exact ⟨_, OrderedMap.mem_of_get?_eq_some found⟩
      · exact ih descriptor upper

/-- A name has one lineage at most. -/
theorem Lineage.unique {name : Text} {first second : List (Descriptor δ)}
    (one : Lineage declared name first) (other : Lineage declared name second) :
    first = second := by
  induction one generalizing second with
  | root found last =>
      cases other with
      | root again _ => rw [Option.some.inj (found.symm.trans again)]
      | child again next _ =>
          cases found.symm.trans again
          cases last.symm.trans next
  | child found next _ ih =>
      cases other with
      | root again last =>
          cases found.symm.trans again
          cases last.symm.trans next
      | child again other rest =>
          cases found.symm.trans again
          cases next.symm.trans other
          rw [ih rest]

/-- The lineage of a name goes on with that of its parent. -/
theorem Lineage.of_extends {name parent : Text} {chain : List (Descriptor δ)}
    (lineage : Lineage declared name chain) (step : Extends declared name parent) :
    ∃ above, Lineage declared parent above := by
  rcases step with ⟨descriptor, found, next⟩
  cases lineage with
  | root again last =>
      cases found.symm.trans again
      cases last.symm.trans next
  | child again other rest =>
      cases found.symm.trans again
      cases other.symm.trans next
      exact ⟨_, rest⟩

/-- Every name on a walk from a name with a lineage has one, too. -/
theorem Lineage.of_mem_walk {start : Text} {chain : List (Descriptor δ)}
    (lineage : Lineage declared start chain) {names : List Text}
    (walk : Walk declared start names) : ∀ name ∈ names, ∃ above, Lineage declared name above := by
  refine walk.climbs.induction (fun name => ∃ above, Lineage declared name above) names
    (fun _ _ step ⟨_, lower⟩ => lower.of_extends step) fun nonempty => ?_
  have head := List.head?_eq_some_head nonempty
  rw [walk.starts] at head
  exact Option.some.inj head ▸ ⟨chain, lineage⟩

/-- Further descriptors leave lineages as they are. -/
theorem Lineage.of_within {more : Hierarchy δ} (within : declared.Within more) {name : Text}
    {chain : List (Descriptor δ)} (lineage : Lineage declared name chain) :
    Lineage more name chain := by
  induction lineage with
  | root found last => exact .root (within _ _ found) last
  | child found next _ ih => exact .child (within _ _ found) next ih

/-- Lineages survive a change of the descriptors that leaves the parents alone. -/
theorem Lineage.mapValues {change : Descriptor δ -> Descriptor δ}
    (parents : forall descriptor : Descriptor δ, (change descriptor).parent = descriptor.parent)
    {name : Text} {chain : List (Descriptor δ)} (lineage : Lineage declared name chain) :
    Lineage (declared.mapValues fun _ descriptor => change descriptor) name (chain.map change) := by
  have changed : forall {other : Text} {descriptor : Descriptor δ},
      declared.get? other = some descriptor ->
      (declared.mapValues fun _ descriptor => change descriptor).get? other =
        some (change descriptor) := by
    intro other descriptor found
    rw [OrderedMap.get?_mapValues, found, Option.map_some]
  induction lineage with
  | root found last => exact .root (changed found) ((parents _).trans last)
  | child found next _ ih => exact .child (changed found) ((parents _).trans next) ih

theorem Lineage.of_mapValues {change : Descriptor δ -> Descriptor δ}
    (parents : forall descriptor : Descriptor δ, (change descriptor).parent = descriptor.parent)
    {name : Text} {chain : List (Descriptor δ)}
    (lineage : Lineage (declared.mapValues fun _ descriptor => change descriptor) name chain) :
    ∃ before, Lineage declared name before ∧ chain = before.map change := by
  have original : forall {other : Text} {changed : Descriptor δ},
      (declared.mapValues fun _ descriptor => change descriptor).get? other = some changed ->
      ∃ descriptor, declared.get? other = some descriptor ∧ change descriptor = changed := by
    intro other changed found
    rw [OrderedMap.get?_mapValues] at found
    exact Option.map_eq_some_iff.mp found
  induction lineage with
  | root found last =>
      rcases original found with ⟨descriptor, held, rfl⟩
      exact ⟨[descriptor], .root held ((parents _).symm.trans last), rfl⟩
  | child found next _ ih =>
      rcases original found with ⟨descriptor, held, rfl⟩
      rcases ih with ⟨before, rest, rfl⟩
      exact ⟨descriptor :: before, .child held ((parents _).symm.trans next) rest, rfl⟩

/-! ## Closed sets of names -/

/-- A name that leads on within a set of names, as all of that set do, has no
lineage. -/
theorem Lineage.not_mem_of_closed {closed : List Text}
    (leads : ∀ name ∈ closed, ∃ parent ∈ closed, Extends declared name parent)
    {name : Text} {chain : List (Descriptor δ)} (lineage : Lineage declared name chain) :
    name ∉ closed := by
  induction lineage with
  | root found last =>
      intro member
      rcases leads _ member with ⟨parent, _, descriptor, again, next⟩
      cases found.symm.trans again
      cases last.symm.trans next
  | child found next _ ih =>
      intro member
      rcases leads _ member with ⟨parent, within, step⟩
      exact ih (step.unique ⟨_, found, next⟩ ▸ within)

/-- A walk that starts in a closed set stays there. -/
theorem Walk.subset_of_closed {closed : List Text}
    (leads : ∀ name ∈ closed, ∃ parent ∈ closed, Extends declared name parent)
    {start : Text} {names : List Text} (walk : Walk declared start names)
    (within : start ∈ closed) : names ⊆ closed := by
  intro name member
  refine walk.climbs.induction (fun name => name ∈ closed) names ?_ ?_ name member
  · intro lower upper step lowerWithin
    rcases leads lower lowerWithin with ⟨parent, upperWithin, other⟩
    exact other.unique step ▸ upperWithin
  · intro nonempty
    have head := List.head?_eq_some_head nonempty
    rw [walk.starts] at head
    exact Option.some.inj head ▸ within

/-- Every name of a climb but the last leads to another of its names. -/
theorem exists_extends_of_mem {names : List Text} {last : Text}
    (climbs : (names ++ [last]).IsChain (Extends declared)) :
    ∀ name ∈ names, ∃ parent ∈ names ++ [last], Extends declared name parent := by
  intro name member
  rcases List.append_of_mem member with ⟨before, after, rfl⟩
  cases after with
  | nil =>
      have step : Extends declared name last := by
        have climb : (before ++ [name, last]).IsChain (Extends declared) := by simpa using climbs
        exact List.isChain_pair.1 climb.right_of_append
      exact ⟨last, by simp, step⟩
  | cons next rest =>
      have step : Extends declared name next := by
        have climb : (before ++ name :: next :: (rest ++ [last])).IsChain (Extends declared) := by
          simpa using climbs
        exact (List.isChain_append_cons_cons.1 climb).2.1
      exact ⟨next, by simp, step⟩

/-- The names of a climb that ends in one of them are closed. -/
theorem closed_of_returning {passed : List Text} {again : Text} (returns : again ∈ passed)
    (climbs : (passed ++ [again]).IsChain (Extends declared)) :
    ∀ name ∈ passed, ∃ parent ∈ passed, Extends declared name parent := by
  intro name member
  rcases exists_extends_of_mem climbs name member with ⟨parent, within, step⟩
  refine ⟨parent, ?_, step⟩
  rcases List.mem_append.1 within with old | only
  · exact old
  · exact List.mem_singleton.1 only ▸ returns

/-! ## One end only -/

/-- Of two walks from one name the shorter is the beginning of the longer. -/
theorem Walk.prefix_of_length_le {start : Text} {first second : List Text}
    (one : Walk declared start first) (other : Walk declared start second)
    (shorter : first.length ≤ second.length) : first <+: second := by
  induction first generalizing start second with
  | nil => exact List.nil_prefix
  | cons head rest ih =>
      cases second with
      | nil => cases shorter
      | cons otherHead otherRest =>
          have heads : head = otherHead :=
            Option.some.inj (one.starts.trans other.starts.symm)
          subst otherHead
          apply (List.prefix_cons_inj head).2
          cases rest with
          | nil => exact List.nil_prefix
          | cons next others =>
              cases otherRest with
              | nil => simp at shorter
              | cons otherNext otherOthers =>
                  rcases List.isChain_cons_cons.1 one.climbs with ⟨step, climbs⟩
                  rcases List.isChain_cons_cons.1 other.climbs with ⟨otherStep, otherClimbs⟩
                  have same := step.unique otherStep
                  exact ih ⟨rfl, climbs⟩ ⟨congrArg some same.symm, otherClimbs⟩
                    (Nat.le_of_succ_le_succ shorter)

/-- A name with a lineage meets no obstacle. -/
theorem Lineage.not_obstacle {kind : DescriptorKind} {start : Text}
    {chain : List (Descriptor δ)} (lineage : Lineage declared start chain) {failure : Failure} :
    ¬ Obstacle kind declared start failure := by
  intro obstacle
  cases obstacle with
  | undefined way last parent walk missing =>
      rcases lineage.of_mem_walk walk parent (by simp) with ⟨_, upper⟩
      exact missing upper.mem_keys
  | cycle tail again loop walk _ =>
      have returns : again ∈ tail ++ again :: loop := by simp
      have closed := closed_of_returning returns walk.climbs
      rcases lineage.of_mem_walk walk again (by simp) with ⟨_, upper⟩
      exact upper.not_mem_of_closed closed (by simp)

/-- A walk to an undeclared parent is the longest walk from its start. -/
theorem Walk.eq_of_prefix_of_missing {start parent : Text} {way names : List Text}
    (walk : Walk declared start names) (missing : parent ∉ declared.keys)
    (within : way ++ [parent] <+: names) : way ++ [parent] = names := by
  rcases within with ⟨rest, rfl⟩
  cases rest with
  | nil => rw [List.append_nil]
  | cons next others =>
      have climb : (way ++ parent :: next :: others).IsChain (Extends declared) := by
        simpa using walk.climbs
      exact absurd (List.isChain_append_cons_cons.1 climb).2.1.mem_keys missing

/-- A walk that has returned to a name cannot leave the names it has passed. -/
theorem not_missing_of_returning {start parent again : Text} {passed names : List Text}
    (walk : Walk declared start (passed ++ [again])) (returns : again ∈ passed)
    (other : Walk declared start names) (member : parent ∈ names) : parent ∈ declared.keys := by
  have closed := closed_of_returning returns walk.climbs
  have within : start ∈ passed := by
    cases passed with
    | nil => cases returns
    | cons head rest => exact Option.some.inj walk.starts ▸ List.mem_cons_self
  rcases closed parent (other.subset_of_closed closed within member) with ⟨_, _, step⟩
  exact step.mem_keys

/-- The part of a walk up to its first return is the same in all walks. -/
theorem Walk.passed_unique {start again other : Text} {first second : List Text}
    (one : Walk declared start (first ++ [again])) (returns : again ∈ first)
    (two : Walk declared start (second ++ [other])) (nodup : second.Nodup)
    (shorter : first.length ≤ second.length) : first ++ [again] = second ++ [other] := by
  have within := one.prefix_of_length_le two (by simpa using shorter)
  rcases Nat.lt_or_ge first.length second.length with less | equal
  · have early : first ++ [again] <+: second :=
      List.prefix_of_prefix_length_le within (List.prefix_append _ _)
        (by simpa using Nat.succ_le_of_lt less)
    have distinct := (nodup.sublist early.sublist)
    rw [List.nodup_append] at distinct
    exact absurd rfl (distinct.2.2 again returns again (List.mem_singleton.2 rfl))
  · exact within.eq_of_length (by simpa using Nat.le_antisymm shorter equal)

/-- A name meets one obstacle at most. -/
theorem Obstacle.unique {kind : DescriptorKind} {start : Text} {first second : Failure}
    (one : Obstacle kind declared start first) (other : Obstacle kind declared start second) :
    first = second := by
  cases one with
  | undefined way last parent walk missing =>
      cases other with
      | undefined otherWay otherLast otherParent otherWalk otherMissing =>
          have same : (way ++ [last]) ++ [parent] = (otherWay ++ [otherLast]) ++ [otherParent] := by
            simp only [List.append_assoc, List.cons_append, List.nil_append]
            rcases Nat.le_total (way ++ [last, parent]).length
              (otherWay ++ [otherLast, otherParent]).length with shorter | longer
            · have within := walk.prefix_of_length_le otherWalk shorter
              rw [List.append_cons] at within ⊢
              exact otherWalk.eq_of_prefix_of_missing missing within
            · have within := otherWalk.prefix_of_length_le walk longer
              rw [List.append_cons otherWay] at within ⊢
              exact (walk.eq_of_prefix_of_missing otherMissing within).symm
          rcases List.append_inj' same rfl with ⟨ways, parents⟩
          rcases List.append_inj' ways rfl with ⟨_, lasts⟩
          rw [List.singleton_inj.1 parents, List.singleton_inj.1 lasts]
      | cycle tail again loop otherWalk _ =>
          exact absurd (not_missing_of_returning otherWalk (by simp) walk (by simp)) missing
  | cycle tail again loop walk nodup =>
      cases other with
      | undefined way last parent otherWalk missing =>
          exact absurd (not_missing_of_returning walk (by simp) otherWalk (by simp)) missing
      | cycle otherTail otherAgain otherLoop otherWalk otherNodup =>
          have same : (tail ++ again :: loop) ++ [again] =
              (otherTail ++ otherAgain :: otherLoop) ++ [otherAgain] := by
            rcases Nat.le_total (tail ++ again :: loop).length
              (otherTail ++ otherAgain :: otherLoop).length with shorter | longer
            · exact walk.passed_unique (by simp) otherWalk otherNodup shorter
            · exact (otherWalk.passed_unique (by simp) walk nodup longer).symm
          rcases List.append_inj' same rfl with ⟨passed, agains⟩
          cases List.singleton_inj.1 agains
          have fresh : again ∉ tail ++ loop :=
            (List.nodup_cons.1 (List.nodup_middle.1 nodup)).1
          rw [List.mem_append, not_or] at fresh
          have split := (List.append_cons_inj_of_notMem fresh.1 fresh.2).1 passed
          rw [split.2.2]

end Inheritance
end EventSchema
