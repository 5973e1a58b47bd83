import EventSchema.Identifiers
import EventSchema.Proofs.Number.Numeral
import EventSchema.Proofs.OrderedMap
import EventSchema.Proofs.Outcomes

namespace EventSchema
namespace Identifiers

/-!
# How identification succeeds and fails

A class is identified on its own, so the outcome of identifying many is decided
class by class: each kept class is the identified one, and the first class that
has a fault ends the run with it.

The faults are those of the event codes, which come from data that nothing has
looked into before, and after these a category that is not declared.
-/

/-! ## Faults of event codes -/

/-- What keeps a single disposition from having a code. -/
inductive DispositionFault (uid : Int) (entry : Text × Json) : Failure -> Prop where
  | shape (number : Int) (numbered : Numeral.readAnyScript? entry.1 = some number)
      (leaf : entry.2.isObject = false) :
      DispositionFault uid entry (.unexpectedShape .disposition)
  | code (number : Int) (numbered : Numeral.readAnyScript? entry.1 = some number)
      (object : entry.2.isObject = true)
      (long : Numeral.writable (uid * codesPerClass + number) = false) :
      DispositionFault uid entry .oversizeInteger

/-- What keeps a class from having event codes: its dispositions are given and no
object, one of them has a fault, or the code of unknown dispositions is too
long. -/
inductive CodesFault (attributes : Attributes) (uid : Int) : Failure -> Prop where
  | enumeration (definition : Fields) (value : Json)
      (declared : attributes.get? "disposition_id" = some definition)
      (held : definition.get? "enum" = some value) (given : value.isGiven = true)
      (leaf : value.isObject = false) :
      CodesFault attributes uid (.unexpectedShape .dispositions)
  | disposition (enumerated : Fields) (failure : Failure)
      (listed : dispositions attributes = .ok enumerated)
      (first : Outcome.FirstFault (DispositionFault uid) enumerated failure) :
      CodesFault attributes uid failure
  | unknown (enumerated : Fields) (listed : dispositions attributes = .ok enumerated)
      (fine : ∀ entry ∈ enumerated, forall failure : Failure, ¬DispositionFault uid entry failure)
      (long : Numeral.writable (uid * codesPerClass + unknownDisposition) = false) :
      CodesFault attributes uid .oversizeInteger

theorem writeInteger_eq_ok_iff {value : Int} {text : Text} :
    writeInteger value = .ok text ↔ Numeral.writable value = true ∧ text = toString value := by
  rw [← Numeral.write?_eq_some_iff]
  unfold writeInteger
  cases Numeral.write? value with
  | some written => simp
  | none => simp

theorem writeInteger_eq_error_iff {value : Int} {failure : Failure} :
    writeInteger value = .error failure ↔
      Numeral.writable value = false ∧ failure = .oversizeInteger := by
  unfold writeInteger Numeral.write?
  cases Numeral.writable value with
  | true => simp
  | false => simp [eq_comm]

theorem addDisposition_eq_error_iff {name caption : Text} {uid : Int} {codes : Fields}
    {entry : Text × Json} {failure : Failure} :
    (addDisposition name caption uid codes entry).outcome = .error failure ↔
      DispositionFault uid entry failure := by
  unfold addDisposition
  cases numbered : Numeral.readAnyScript? entry.1 with
  | none =>
      refine ⟨fun same => (by cases same), fun fault => ?_⟩
      cases fault with
      | shape number read _ => cases numbered.symm.trans read
      | code number read _ _ => cases numbered.symm.trans read
  | some number =>
      dsimp only
      cases held : entry.2 with
      | obj definition =>
          simp only [Report.outcome_bind, Report.outcome_liftM, Outcome.bind_eq_error_iff, eventCode,
            writeInteger_eq_error_iff, Report.outcome_pure, reduceCtorEq, and_false, exists_false,
            or_false]
          constructor
          · rintro ⟨long, rfl⟩
            exact .code number numbered (by rw [held]; rfl) long
          · intro fault
            cases fault with
            | shape other _ leaf => rw [held] at leaf; cases leaf
            | code other read _ long =>
                cases numbered.symm.trans read
                exact ⟨long, rfl⟩
      | _ =>
          constructor
          · intro same
            cases same
            exact .shape number numbered (by rw [held]; rfl)
          · intro fault
            cases fault with
            | shape other _ leaf => rfl
            | code other _ object _ => rw [held] at object; cases object

/-- The dispositions fail for one shape only. -/
theorem dispositions_eq_error_iff {attributes : Attributes} {failure : Failure} :
    dispositions attributes = .error failure ↔ failure = .unexpectedShape .dispositions ∧
      ∃ definition value, attributes.get? "disposition_id" = some definition ∧
        definition.get? "enum" = some value ∧ value.isGiven = true ∧ value.isObject = false := by
  unfold dispositions
  split
  · next none =>
      refine ⟨fun same => (by cases same), ?_⟩
      rintro ⟨_, definition, value, declared, held, _⟩
      rw [declared, Option.bind_some, held] at none
      cases none
  · next value found =>
      rcases Option.bind_eq_some_iff.mp found with ⟨definition, declared, held⟩
      split
      · next absent =>
          refine ⟨fun same => (by cases same), ?_⟩
          rintro ⟨_, other, otherValue, otherDeclared, otherHeld, given, _⟩
          cases declared.symm.trans otherDeclared
          cases held.symm.trans otherHeld
          rw [given] at absent
          cases absent
      · next given =>
          split
          · refine ⟨fun same => (by cases same), ?_⟩
            rintro ⟨_, other, otherValue, otherDeclared, otherHeld, _, leaf⟩
            cases declared.symm.trans otherDeclared
            cases held.symm.trans otherHeld
            cases leaf
          · next leaf =>
              constructor
              · intro same
                refine ⟨(Except.error.inj same).symm, definition, value, declared, held,
                  by simpa using given, ?_⟩
                cases value with
                | obj fields => exact absurd rfl (leaf fields)
                | _ => rfl
              · rintro ⟨rfl, _⟩
                rfl

/-- The event codes of a class fail exactly for their faults. -/
theorem eventCodes_eq_error_iff {name : Text} {cls : ClassDescriptor} {uid : Int}
    {failure : Failure} :
    (eventCodes name cls uid).outcome = .error failure ↔ CodesFault cls.attributes uid failure := by
  have folds : forall enumerated : Fields, forall other : Failure,
      (enumerated.foldlM (addDisposition name cls.displayName uid) []).outcome = .error other ↔
        Outcome.FirstFault (DispositionFault uid) enumerated other := by
    intro enumerated other
    rw [Report.outcome_foldlM]
    apply Outcome.foldlM_eq_error_iff_firstFault
    exact fun codes entry failure => addDisposition_eq_error_iff
  unfold eventCodes
  simp only [Report.outcome_bind, Report.outcome_liftM, Outcome.bind_eq_error_iff, eventCode,
    writeInteger_eq_error_iff, Report.outcome_pure, reduceCtorEq, and_false, exists_false, or_false,
    folds]
  constructor
  · rintro (shape | ⟨enumerated, listed, first | ⟨codes, folded, long, rfl⟩⟩)
    · rcases dispositions_eq_error_iff.mp shape with
        ⟨rfl, definition, value, declared, held, given, leaf⟩
      exact .enumeration definition value declared held given leaf
    · exact .disposition enumerated failure listed first
    · refine .unknown enumerated listed (Outcome.not_firstFault_iff.mp fun other first => ?_) long
      cases folded.symm.trans ((folds enumerated other).2 first)
  · intro fault
    cases fault with
    | enumeration definition value declared held given leaf =>
        exact Or.inl (dispositions_eq_error_iff.mpr
          ⟨rfl, definition, value, declared, held, given, leaf⟩)
    | disposition enumerated _ listed first => exact Or.inr ⟨enumerated, listed, Or.inl first⟩
    | unknown enumerated listed fine long =>
        rcases Outcome.exists_ok_iff.mpr fun other failed => Outcome.not_firstFault_iff.mpr fine other
            ((folds enumerated other).1 failed) with
          ⟨codes, folded⟩
        exact Or.inr ⟨enumerated, listed, Or.inr ⟨codes, folded, long, rfl⟩⟩

/-! ## Faults of classes -/

/-- What keeps a class with a number from being identified: it has no event codes,
or else its category is not declared. -/
inductive IdentityFault (categories : OrderedMap Text Category) (cls : ClassDescriptor) :
    Failure -> Prop where
  | codes (uid : Int) (failure : Failure) (numbered : cls.details.uid = some uid)
      (fault : CodesFault cls.attributes uid failure) : IdentityFault categories cls failure
  | category (uid : Int) (numbered : cls.details.uid = some uid)
      (fine : forall failure : Failure, ¬CodesFault cls.attributes uid failure)
      (unknown : categoryOf? categories cls = none) :
      IdentityFault categories cls (.unknownCategory cls.displayName cls.details.category)

/-- A class whose codes can be written has a number that can. -/
theorem writable_of_writable_mul {uid : Int}
    (writes : Numeral.writable (uid * codesPerClass + unknownDisposition) = true) :
    Numeral.writable uid = true := by
  rw [Numeral.writable_iff] at writes ⊢
  refine Nat.lt_of_le_of_lt ?_ writes
  simp only [codesPerClass, unknownDisposition]
  omega

variable {categories : OrderedMap Text Category}

/-- A class with event codes has its own code. -/
theorem classCodes_ne_error {name : Text} {cls : ClassDescriptor} {uid : Int} {codes : Fields}
    (made : (eventCodes name cls uid).outcome = .ok codes) (failure : Failure) :
    classCodes cls uid ≠ .error failure := by
  intro failed
  unfold classCodes at failed
  rw [Outcome.bind_eq_error_iff, writeInteger_eq_error_iff] at failed
  rcases failed with ⟨long, _⟩ | ⟨_, _, same⟩
  · unfold eventCodes at made
    simp only [Report.outcome_bind, Report.outcome_liftM, Outcome.bind_eq_ok_iff, eventCode,
      writeInteger_eq_ok_iff] at made
    rcases made with ⟨_, _, _, _, _, ⟨writes, _⟩, _⟩
    rw [writable_of_writable_mul writes] at long
    cases long
  · cases same

/-- The code of a category is only missing with the category. -/
theorem categoryCodes_eq_error_iff
    (numbers : ∀ entry ∈ categories, Numeral.writable entry.2.id = true) {cls : ClassDescriptor}
    {failure : Failure} :
    categoryCodes categories cls = .error failure ↔
      categoryOf? categories cls = none ∧
        failure = .unknownCategory cls.displayName cls.details.category := by
  unfold categoryCodes
  cases found : categoryOf? categories cls with
  | none => simp [eq_comm]
  | some category =>
      rcases Option.bind_eq_some_iff.mp found with ⟨key, _, held⟩
      have writes := numbers _ (OrderedMap.mem_of_get?_eq_some held)
      constructor
      · intro failed
        rcases Outcome.bind_eq_error_iff.mp failed with long | ⟨_, _, same⟩
        · rw [writeInteger_eq_error_iff, writes] at long
          cases long.1
        · cases same
      · rintro ⟨missing, _⟩
        cases missing

/-- Identification fails exactly for the faults of the class.  The numbers of
categories have been read, so they can be written. -/
theorem identify_eq_error_iff
    (numbers : ∀ entry ∈ categories, Numeral.writable entry.2.id = true) {name : Text}
    {cls : ClassDescriptor} {uid : Int} (numbered : cls.details.uid = some uid)
    {failure : Failure} :
    (identify categories name cls uid).outcome = .error failure ↔
      IdentityFault categories cls failure := by
  unfold identify
  simp only [Report.outcome_bind, Report.outcome_liftM, Outcome.bind_eq_error_iff,
    eventCodes_eq_error_iff, categoryCodes_eq_error_iff numbers, Report.outcome_pure, reduceCtorEq,
    and_false, exists_false, or_false]
  constructor
  · rintro (fault | ⟨events, made, failed | ⟨codes, _, unknown, rfl⟩⟩)
    · exact .codes uid failure numbered fault
    · exact absurd failed (classCodes_ne_error made failure)
    · refine .category uid numbered (fun other fault => ?_) unknown
      cases made.symm.trans (eventCodes_eq_error_iff.mpr fault)
  · intro fault
    cases fault with
    | codes other _ otherNumbered fault =>
        cases numbered.symm.trans otherNumbered
        exact Or.inl fault
    | category other otherNumbered fine unknown =>
        cases numbered.symm.trans otherNumbered
        have made : ∃ events, (eventCodes name cls uid).outcome = .ok events :=
          Outcome.exists_ok_iff.mpr fun other failed =>
            fine other (eventCodes_eq_error_iff.mp failed)
        rcases made with ⟨events, made⟩
        rcases Outcome.exists_ok_iff.mpr (classCodes_ne_error made) with ⟨codes, written⟩
        exact Or.inr ⟨events, made, Or.inr ⟨codes, written, unknown, rfl⟩⟩

/-- The run fails with the first fault in the order of the classes. -/
theorem identifyAll_eq_error_iff
    (numbers : ∀ entry ∈ categories, Numeral.writable entry.2.id = true)
    {classes : OrderedMap Text ClassDescriptor} {failure : Failure} :
    (identifyAll categories classes).outcome = .error failure ↔
      Outcome.FirstFault (fun entry other => IdentityFault categories entry.2 other)
        classes failure := by
  unfold identifyAll
  rw [Report.outcome_foldlM]
  apply Outcome.foldlM_eq_error_iff_firstFault
  intro identified entry other
  unfold identifyNext
  cases numbered : entry.2.details.uid with
  | none =>
      refine ⟨fun same => (by cases same), fun fault => ?_⟩
      cases fault with
      | codes uid _ held _ => cases numbered.symm.trans held
      | category uid held _ _ => cases numbered.symm.trans held
  | some uid =>
      simp only [Report.outcome_bind, Outcome.bind_eq_error_iff,
        identify_eq_error_iff numbers numbered, Report.outcome_pure, reduceCtorEq, and_false,
        exists_false, or_false]

/-! ## Identification reads no files -/

theorem reads_addDisposition (name caption : Text) (uid : Int) (codes : Fields)
    (entry : Text × Json) : (addDisposition name caption uid codes entry).reads = [] := by
  unfold addDisposition
  split
  · rfl
  · split
    · exact Report.reads_bind_eq_nil (Report.reads_liftM _) fun _ => Report.reads_pure _
    · rfl

theorem reads_eventCodes (name : Text) (cls : ClassDescriptor) (uid : Int) :
    (eventCodes name cls uid).reads = [] := by
  apply Report.reads_bind_eq_nil (Report.reads_liftM _)
  intro enumerated
  refine Report.reads_bind_eq_nil ?_ fun _ => ?_
  · exact Report.reads_foldlM_eq_nil (reads_addDisposition name cls.displayName uid) enumerated []
  · exact Report.reads_bind_eq_nil (Report.reads_liftM _) fun _ => Report.reads_pure _

theorem reads_identify (name : Text) (cls : ClassDescriptor) (uid : Int) :
    (identify categories name cls uid).reads = [] := by
  apply Report.reads_bind_eq_nil (reads_eventCodes name cls uid)
  intro _
  apply Report.reads_bind_eq_nil (Report.reads_liftM _)
  intro _
  exact Report.reads_bind_eq_nil (Report.reads_liftM _) fun _ => Report.reads_pure _

theorem reads_identifyAll (classes : OrderedMap Text ClassDescriptor) :
    (identifyAll categories classes).reads = [] := by
  refine Report.reads_foldlM_eq_nil (fun identified entry => ?_) classes []
  unfold identifyNext
  split
  · rfl
  · exact Report.reads_bind_eq_nil (reads_identify _ _ _) fun _ => Report.reads_pure _

/-! ## Identified classes -/

/-- Identification replaces the definitions of three attributes by their enumerations,
and credits the others. -/
theorem exists_codes_of_identify {name : Text} {cls identified : ClassDescriptor} {uid : Int}
    (identifies : (identify categories name cls uid).outcome = .ok identified) :
    ∃ events own category, (eventCodes name cls uid).outcome = .ok events ∧
      classCodes cls uid = .ok own ∧ categoryCodes categories cls = .ok category ∧
      identified = { cls with
        attributes :=
          (((cls.attributes.creditTo name).insert "event_uid"
            (enumerate cls.attributes "event_uid" name events)).insert "class_id"
            (enumerate cls.attributes "class_id" name own)).insert "category_id"
            (enumerate cls.attributes "category_id" name category) } := by
  unfold identify at identifies
  simp only [Report.outcome_bind, Report.outcome_liftM, Outcome.bind_eq_ok_iff,
    Report.outcome_pure] at identifies
  rcases identifies with ⟨events, made, own, ownMade, category, categoryMade, same⟩
  exact ⟨events, own, category, made, ownMade, categoryMade, (Except.ok.inj same).symm⟩

/-- Identification only replaces attributes, and it takes a declared category. -/
theorem identify_eq_ok {name : Text} {cls identified : ClassDescriptor} {uid : Int}
    (identifies : (identify categories name cls uid).outcome = .ok identified) :
    identified.type = cls.type ∧ identified.parent = cls.parent ∧
      identified.details = cls.details ∧
      ∃ category, cls.details.category = some category ∧ category ∈ categories.keys := by
  rcases exists_codes_of_identify identifies with ⟨_, _, _, _, _, categorized, rfl⟩
  refine ⟨rfl, rfl, rfl, ?_⟩
  unfold categoryCodes at categorized
  split at categorized
  · cases categorized
  · next found =>
      rcases Option.bind_eq_some_iff.mp found with ⟨key, named, held⟩
      exact ⟨key, named, OrderedMap.mem_keys_of_get?_eq_some held⟩

/-- An entry that is kept is the identified form of a class with a number. -/
def Identifies (categories : OrderedMap Text Category) (entry : Text × ClassDescriptor)
    (kept : Text × ClassDescriptor) : Prop :=
  entry.1 = kept.1 ∧ ∃ uid, entry.2.details.uid = some uid ∧
    (identify categories entry.1 entry.2 uid).outcome = .ok kept.2

/-- The classes that have a number. -/
def numbered (classes : OrderedMap Text ClassDescriptor) : OrderedMap Text ClassDescriptor :=
  classes.filter fun entry => entry.2.details.uid.isSome

/-- A run over further classes appends the identified forms of those with a number. -/
theorem exists_append_of_foldlM {rest kept result : OrderedMap Text ClassDescriptor}
    (distinct : rest.Distinct) (fresh : ∀ name ∈ rest.keys, name ∉ kept.keys)
    (folds : rest.foldlM (fun state entry => (identifyNext categories state entry).outcome) kept =
      .ok result) :
    ∃ more, result = kept ++ more ∧
      List.Forall₂ (Identifies categories) (numbered rest) more := by
  induction rest generalizing kept with
  | nil =>
      cases folds
      exact ⟨[], (List.append_nil _).symm, .nil⟩
  | cons entry rest ih =>
      rw [List.foldlM_cons] at folds
      rcases Outcome.bind_eq_ok_iff.mp folds with ⟨middle, first, folds⟩
      have later : ∀ name ∈ OrderedMap.keys rest, name ∉ kept.keys :=
        fun name member => fresh name (List.mem_cons_of_mem _ member)
      unfold identifyNext at first
      cases held : entry.2.details.uid with
      | none =>
          rw [held] at first
          cases first
          rcases ih distinct.tail later folds with ⟨more, same, all⟩
          exact ⟨more, same, by simpa [numbered, held] using all⟩
      | some uid =>
          rw [held, Report.outcome_bind] at first
          rcases Outcome.bind_eq_ok_iff.mp first with ⟨cls, identifies, same⟩
          cases same
          rw [OrderedMap.insert_eq_append (fresh entry.1 List.mem_cons_self)] at folds
          have apart : ∀ name ∈ OrderedMap.keys rest,
              name ∉ OrderedMap.keys (kept ++ [(entry.1, cls)]) := by
            intro name member known
            rw [OrderedMap.keys_append, List.mem_append] at known
            rcases known with old | new
            · exact later name member old
            · exact (List.nodup_cons.mp distinct).1 (List.mem_singleton.mp new ▸ member)
          rcases ih distinct.tail apart folds with ⟨more, same, all⟩
          refine ⟨(entry.1, cls) :: more, by rw [same]; simp, ?_⟩
          have head : Identifies categories entry (entry.1, cls) := ⟨rfl, uid, held, identifies⟩
          simpa [numbered, held] using List.Forall₂.cons head all

/-- The classes with a number are kept, in order, each identified by itself. -/
theorem forall₂_of_identifyAll (classes : KeyedMap Text ClassDescriptor)
    {identified : OrderedMap Text ClassDescriptor}
    (success : (identifyAll categories classes).outcome = .ok identified) :
    List.Forall₂ (Identifies categories) (numbered classes) identified := by
  unfold identifyAll at success
  rw [Report.outcome_foldlM] at success
  rcases exists_append_of_foldlM classes.distinct (by simp) success with ⟨more, rfl, all⟩
  exact all

end Identifiers
end EventSchema
