import EventSchema.Proofs.Catalog.Identities

namespace EventSchema

/-!
# Event codes of different classes

The code of an event is a thousand times the number of its class plus the number of
its disposition.  Nothing bounds the dispositions that a class may enumerate, so two
classes can have a code in common.  They do exactly where the difference between two
of their dispositions makes up for that between the classes.

Dispositions from zero up to a thousand leave no room for that: such a code gives
away the number of its class.  The code of `Other` belongs to every class and tells
nothing.
-/

namespace Identifiers

variable {attributes : Attributes} {caption : Text} {uid : Int} {codes : Fields}

/-- A disposition with which events of a class have a code of the class: one that it
enumerates, or the unknown one. -/
def Disposes (attributes : Attributes) (number : Int) : Prop :=
  number = unknownDisposition ∨ HasDisposition attributes number

/-- All dispositions that a class enumerates stay within the codes of the class. -/
def WithinRange (attributes : Attributes) : Prop :=
  forall number : Int, HasDisposition attributes number -> 0 ≤ number ∧ number < codesPerClass

/-- Whether a class stays within its range is read off the enumeration. -/
theorem withinRange_iff : WithinRange attributes ↔
    ∀ enumerated ∈ (dispositions attributes).toOption, ∀ entry ∈ enumerated,
      ∀ number ∈ Numeral.readAnyScript? entry.1, 0 ≤ number ∧ number < codesPerClass := by
  constructor
  · intro within enumerated listed entry member number numbered
    exact within number ⟨enumerated, Outcome.toOption_eq_some_iff.mp listed, entry, member, numbered⟩
  · rintro all number ⟨enumerated, listed, entry, member, numbered⟩
    exact all enumerated (Outcome.toOption_eq_some_iff.mpr listed) entry member number numbered

instance (attributes : Attributes) : Decidable (WithinRange attributes) :=
  decidable_of_iff _ withinRange_iff.symm

theorem WithinRange.of_disposes (within : WithinRange attributes) {number : Int}
    (disposes : Disposes attributes number) : 0 ≤ number ∧ number < codesPerClass := by
  rcases disposes with rfl | has
  · decide
  · exact within number has

/-- A code is that of `Other`, or that of a disposition. -/
theorem EventCodes.mem_keys_iff (events : EventCodes attributes caption uid codes) {code : Text} :
    code ∈ codes.keys ↔ code = toString otherCode ∨
      ∃ number, Disposes attributes number ∧ code = toString (uid * codesPerClass + number) := by
  simp only [events.complete, Disposes, or_and_right, exists_or, exists_eq_left,
    unknownDisposition, Int.add_zero]

/-- Within its range, a disposition leaves the number of the class to be read off the
code. -/
theorem ediv_codesPerClass {number : Int} (within : 0 ≤ number ∧ number < codesPerClass) :
    (uid * codesPerClass + number) / codesPerClass = uid := by
  rw [codesPerClass] at within ⊢
  omega

end Identifiers

namespace Catalog

open Identifiers

/-- The enumeration of events that a class shows. -/
def shownEventCodes? (cls : ClassDescriptor) : Option Fields :=
  (Attributes.fieldOf? cls.attributes "event_uid" "enum").bind Json.fields?

/-- A class shows a code of events. -/
def HasEventCode (cls : ClassDescriptor) (code : Text) : Prop :=
  ∃ codes ∈ shownEventCodes? cls, code ∈ codes.keys

instance (cls : ClassDescriptor) (code : Text) : Decidable (HasEventCode cls code) :=
  inferInstanceAs (Decidable (∃ codes ∈ shownEventCodes? cls, code ∈ codes.keys))

/-- How the event codes of a class meet those of another one with a different
number. -/
structure CodesMeet (first second : ClassDescriptor) (firstUid secondUid : Int) : Prop where
  other : HasEventCode first (toString otherCode) ∧ HasEventCode second (toString otherCode)
  shared : forall code : Text, code ≠ toString otherCode ->
    (HasEventCode first code ∧ HasEventCode second code ↔
      ∃ one two, Disposes first.attributes one ∧ Disposes second.attributes two ∧
        two - one = (firstUid - secondUid) * codesPerClass ∧
        code = toString (firstUid * codesPerClass + one))
  tells : WithinRange first.attributes -> forall code : Int, HasEventCode first (toString code) ->
    code ≠ otherCode -> code / codesPerClass = firstUid
  apart : WithinRange first.attributes -> WithinRange second.attributes ->
    forall code : Text, HasEventCode first code -> HasEventCode second code ->
      code = toString otherCode

variable {tree : SchemaTree} {catalog : Catalog} {cls first second : ClassDescriptor}
  {uid firstUid secondUid : Int}

/-- A class shows the code of `Other` and those of its dispositions. -/
def ShowsEventCodes (cls : ClassDescriptor) (uid : Int) : Prop :=
  forall code : Text, HasEventCode cls code ↔ code = toString otherCode ∨
    ∃ number, Disposes cls.attributes number ∧ code = toString (uid * codesPerClass + number)

theorem Stages.showsEventCodes (stages : Stages tree catalog) {name : Text}
    (listed : (name, cls) ∈ catalog.classes) (numbered : cls.details.uid = some uid) :
    ShowsEventCodes cls uid := by
  rcases stages.identified listed with ⟨_, _, identified⟩
  rcases identified.eventUid with ⟨own, codes, definition, held, events, found, enumerates⟩
  cases numbered.symm.trans held
  have shown : shownEventCodes? cls = some codes := by
    rw [shownEventCodes?, Attributes.fieldOf?, found, Option.bind_some, enumerates.codes]
    rfl
  intro code
  rw [← events.mem_keys_iff]
  constructor
  · rintro ⟨others, again, member⟩
    cases shown.symm.trans again
    exact member
  · exact fun member => ⟨codes, shown, member⟩

theorem ShowsEventCodes.exists_disposes (shows : ShowsEventCodes cls uid) {code : Text}
    (different : code ≠ toString otherCode) (has : HasEventCode cls code) :
    ∃ number, Disposes cls.attributes number ∧
      code = toString (uid * codesPerClass + number) :=
  ((shows code).1 has).resolve_left different

/-- A code within range tells the number of its class, unless it is that of `Other`. -/
theorem ShowsEventCodes.ediv_eq (shows : ShowsEventCodes cls uid)
    (within : WithinRange cls.attributes) {code : Int} (has : HasEventCode cls (toString code))
    (different : code ≠ otherCode) : code / codesPerClass = uid := by
  have own : (toString code : Text) ≠ toString otherCode :=
    fun same => different (Numeral.toString_text_inj.mp same)
  rcases shows.exists_disposes own has with ⟨number, disposes, same⟩
  rw [Numeral.toString_text_inj.mp same]
  exact ediv_codesPerClass (within.of_disposes disposes)

theorem codesMeet (firstShows : ShowsEventCodes first firstUid)
    (secondShows : ShowsEventCodes second secondUid) (different : firstUid ≠ secondUid) :
    CodesMeet first second firstUid secondUid := by
  constructor
  case other => exact ⟨(firstShows _).2 (Or.inl rfl), (secondShows _).2 (Or.inl rfl)⟩
  case shared =>
    intro code own
    constructor
    · rintro ⟨inFirst, inSecond⟩
      rcases firstShows.exists_disposes own inFirst with ⟨one, disposesOne, rfl⟩
      rcases secondShows.exists_disposes own inSecond with ⟨two, disposesTwo, same⟩
      have meet := Numeral.toString_text_inj.mp same
      refine ⟨one, two, disposesOne, disposesTwo, ?_, rfl⟩
      rw [Int.sub_mul]
      omega
    · rintro ⟨one, two, disposesOne, disposesTwo, apart, rfl⟩
      refine ⟨(firstShows _).2 (Or.inr ⟨one, disposesOne, rfl⟩),
        (secondShows _).2 (Or.inr ⟨two, disposesTwo, ?_⟩)⟩
      rw [Int.sub_mul] at apart
      rw [Numeral.toString_text_inj]
      omega
  case tells => exact fun within code has => firstShows.ediv_eq within has
  case apart =>
    intro firstWithin secondWithin code inFirst inSecond
    by_contra own
    rcases firstShows.exists_disposes own inFirst with ⟨one, _, rfl⟩
    have apart : firstUid * codesPerClass + one ≠ otherCode :=
      fun same => own (Numeral.toString_text_inj.mpr same)
    exact different ((firstShows.ediv_eq firstWithin inFirst apart).symm.trans
      (secondShows.ediv_eq secondWithin inSecond apart))

/-- Every class of a loaded catalog has the code of `Other`.  Classes with different
numbers have another code in common exactly where two of their dispositions lie as far
apart as the codes of the classes.  Dispositions within the range of a class leave none:
there a code tells the number of its class. -/
theorem load_separates_event_codes (tree : SchemaTree) (catalog : Catalog)
    (loads : (load tree).outcome = .ok catalog) (first second : Text × ClassDescriptor)
    (firstListed : first ∈ catalog.classes) (secondListed : second ∈ catalog.classes)
    (firstUid secondUid : Int) (firstNumbered : first.2.details.uid = some firstUid)
    (secondNumbered : second.2.details.uid = some secondUid) (different : firstUid ≠ secondUid) :
    CodesMeet first.2 second.2 firstUid secondUid := by
  rcases exists_stages loads with ⟨stages⟩
  exact codesMeet (stages.showsEventCodes firstListed firstNumbered)
    (stages.showsEventCodes secondListed secondNumbered) different

/-- A schema of three classes, the first of which has a disposition that is out of
range. -/
def neighbouringTree : SchemaTree :=
  let files : MemoryTree :=
    { files :=
        [(Path.parse "s/categories.json", "\x7b\"attributes\": \x7b\"net\": \x7b\"id\": 4\x7d\x7d\x7d"),
         (Path.parse "s/dictionary.json", "\x7b\x7d"),
         (Path.parse "s/events/flow.json",
           "\x7b\"type\": \"flow\", \"uid\": 1, \"category\": \"net\", \"attributes\":
             \x7b\"disposition_id\": \x7b\"enum\": \x7b\"1000\": \x7b\"name\": \"Late\"\x7d\x7d\x7d\x7d\x7d"),
         (Path.parse "s/events/probe.json",
           "\x7b\"type\": \"probe\", \"uid\": 0, \"category\": \"net\", \"attributes\":
             \x7b\"disposition_id\": \x7b\"enum\": \x7b\"5\": \x7b\"name\": \"Lost\"\x7d\x7d\x7d\x7d\x7d"),
         (Path.parse "s/events/scan.json",
           "\x7b\"type\": \"scan\", \"uid\": 2, \"category\": \"net\"\x7d")]
      unreadable := [] }
  SchemaTree.below files.source (Path.parse "s") "extensions"

/-- What is told about a class: its name, its number, whether it shows the code 2000,
and whether its dispositions are within range. -/
def eventRow (entry : Text × ClassDescriptor) : Text × Option Int × Bool × Bool :=
  (entry.1, entry.2.details.uid, decide (HasEventCode entry.2 "2000"),
    decide (WithinRange entry.2.attributes))

/-- The classes of the schema. -/
def neighbours : List (Text × Option Int × Bool × Bool) :=
  [("flow", some 1, true, false), ("probe", some 0, false, true), ("scan", some 2, true, true)]

theorem exists_neighbours : ∃ catalog, (load neighbouringTree).outcome = .ok catalog ∧
    catalog.classes.map eventRow = neighbours := by
  have computed : (load neighbouringTree).outcome.toOption.map (fun catalog =>
      catalog.classes.map eventRow) = some neighbours := by
    decide +kernel
  rcases Option.map_eq_some_iff.mp computed with ⟨catalog, loaded, rows⟩
  exact ⟨catalog, Outcome.toOption_eq_some_iff.mp loaded, rows⟩

/-- A row of the table tells of a listed class. -/
theorem exists_class_of_eventRow {catalog : Catalog}
    (rows : catalog.classes.map eventRow = neighbours) (name : Text) (uid : Int)
    (overlaps within : Bool) (member : (name, some uid, overlaps, within) ∈ neighbours) :
    ∃ cls, (name, cls) ∈ catalog.classes ∧ cls.details.uid = some uid ∧
      (overlaps = true -> HasEventCode cls "2000") ∧
      (within = true -> WithinRange cls.attributes) := by
  rcases List.mem_map.1 (rows ▸ member) with ⟨⟨key, cls⟩, listed, row⟩
  simp only [eventRow, Prod.mk.injEq] at row
  rcases row with ⟨rfl, uidOf, rfl, rfl⟩
  exact ⟨cls, listed, uidOf, of_decide_eq_true, of_decide_eq_true⟩

/-- The two classes within their ranges have the code of `Other` in common and no
other. -/
theorem load_separates_event_codes_within_range :
    ∃ catalog probe scan, (load neighbouringTree).outcome = .ok catalog ∧
      (("probe" : Text), probe) ∈ catalog.classes ∧ (("scan" : Text), scan) ∈ catalog.classes ∧
      probe.details.uid = some 0 ∧ scan.details.uid = some 2 ∧ CodesMeet probe scan 0 2 ∧
      forall code : Text, HasEventCode probe code -> HasEventCode scan code ->
        code = toString otherCode := by
  rcases exists_neighbours with ⟨catalog, loads, rows⟩
  rcases exists_class_of_eventRow rows "probe" 0 false true (by decide) with
    ⟨probe, probeListed, probeUid, _, probeWithin⟩
  rcases exists_class_of_eventRow rows "scan" 2 true true (by decide) with
    ⟨scan, scanListed, scanUid, _, scanWithin⟩
  have meet := load_separates_event_codes neighbouringTree catalog loads ("probe", probe)
    ("scan", scan) probeListed scanListed 0 2 probeUid scanUid (by decide)
  exact ⟨catalog, probe, scan, loads, probeListed, scanListed, probeUid, scanUid, meet,
    meet.apart (probeWithin rfl) (scanWithin rfl)⟩

/-- The disposition that is out of range has the code of the next class's `Unknown`. -/
theorem load_lets_event_codes_overlap :
    ∃ catalog flow scan, (load neighbouringTree).outcome = .ok catalog ∧
      (("flow" : Text), flow) ∈ catalog.classes ∧ (("scan" : Text), scan) ∈ catalog.classes ∧
      flow.details.uid = some 1 ∧ scan.details.uid = some 2 ∧
      ("2000" : Text) ≠ toString otherCode ∧
      HasEventCode flow "2000" ∧ HasEventCode scan "2000" := by
  rcases exists_neighbours with ⟨catalog, loads, rows⟩
  rcases exists_class_of_eventRow rows "flow" 1 true false (by decide) with
    ⟨flow, flowListed, flowUid, flowOverlaps, _⟩
  rcases exists_class_of_eventRow rows "scan" 2 true true (by decide) with
    ⟨scan, scanListed, scanUid, scanOverlaps, _⟩
  exact ⟨catalog, flow, scan, loads, flowListed, scanListed, flowUid, scanUid, by decide,
    flowOverlaps rfl, scanOverlaps rfl⟩

end Catalog
end EventSchema
