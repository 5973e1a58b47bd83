import EventSchema.Proofs.Inheritance.Ancestry
import EventSchema.Proofs.Inheritance.Chain

namespace EventSchema
namespace Inheritance

/-!
# Flattening a hierarchy

Descriptors are flattened one after another, and what is flattened is kept.
`Settled` says what is kept at any time: every name comes after its parent, and
its record combines its lineage, whatever was flattened before it.  One ascent
preserves this or meets the obstacle of its start (`resolve_spec`), and so does
the whole run (`flatten_spec`).

The main statements say what flattening yields and when it fails.  It fails at
the first name in the order of declaration that meets an obstacle, and with the
failure of that obstacle.
-/

variable {δ : Type} [Details δ] [Heritable δ]

/-- A hierarchy of records: its names are distinct and every descriptor is one
that validation gives. -/
structure WellFormed (declared : Hierarchy δ) : Prop where
  distinct : declared.Distinct
  records : ∀ entry ∈ declared, entry.2.WellFormed

instance (declared : Hierarchy δ) : Decidable (WellFormed declared) :=
  decidable_of_iff (declared.Distinct ∧ ∀ entry ∈ declared, entry.2.WellFormed)
    ⟨fun ⟨distinct, records⟩ => ⟨distinct, records⟩,
    fun ⟨distinct, records⟩ => ⟨distinct, records⟩⟩

/-- A record is that of a name's lineage. -/
def Settles (declared : Hierarchy δ) (name : Text) (record : Descriptor δ) : Prop :=
  ∃ own above, Lineage declared name (own :: above) ∧ record = own.combineAll above

/-- What is flattened at any time: each record is that of its lineage and comes
after the record of its parent. -/
structure Settled (declared flattened : Hierarchy δ) : Prop where
  distinct : flattened.Distinct
  settles : forall (name : Text) (record : Descriptor δ),
    flattened.get? name = some record -> Settles declared name record
  ordered : forall name parent : Text, name ∈ flattened.keys -> Extends declared name parent ->
    [parent, name].Sublist flattened.keys

variable {declared flattened : Hierarchy δ}

theorem Settles.exists_lineage {name : Text} {record : Descriptor δ}
    (settles : Settles declared name record) : ∃ chain, Lineage declared name chain := by
  rcases settles with ⟨own, above, lineage, _⟩
  exact ⟨own :: above, lineage⟩

/-- A name has one record at most. -/
theorem Settles.unique {name : Text} {first second : Descriptor δ}
    (one : Settles declared name first) (other : Settles declared name second) :
    first = second := by
  rcases one with ⟨own, above, lineage, rfl⟩
  rcases other with ⟨_, _, again, rfl⟩
  cases lineage.unique again
  rfl

/-- Further descriptors leave records as they are. -/
theorem Settles.of_within {more : Hierarchy δ} (within : declared.Within more) {name : Text}
    {record : Descriptor δ} (settles : Settles declared name record) :
    Settles more name record := by
  rcases settles with ⟨own, above, lineage, rfl⟩
  exact ⟨own, above, lineage.of_within within, rfl⟩

theorem Settled.nil : Settled declared [] where
  distinct := List.nodup_nil
  settles _ _ found := by cases found
  ordered _ _ member := by cases member

/-- A record may be added once that of its parent is there. -/
theorem Settled.insert (settled : Settled declared flattened) {name : Text}
    {record : Descriptor δ} (settles : Settles declared name record)
    (above : forall parent : Text, Extends declared name parent -> parent ∈ flattened.keys) :
    Settled declared (flattened.insert name record) := by
  refine ⟨settled.distinct.insert name record, ?_, ?_⟩
  · intro other kept found
    rw [OrderedMap.get?_insert] at found
    by_cases same : name = other
    · rw [if_pos same] at found
      cases found
      exact same ▸ settles
    · rw [if_neg same] at found
      exact settled.settles other kept found
  · intro other parent member step
    rw [OrderedMap.keys_insert]
    by_cases present : name ∈ flattened.keys
    · rw [if_pos present]
      rcases OrderedMap.mem_keys_insert.1 member with rfl | old
      · exact settled.ordered other parent present step
      · exact settled.ordered other parent old step
    · rw [if_neg present]
      rcases OrderedMap.mem_keys_insert.1 member with rfl | old
      · exact (List.singleton_sublist.2 (above parent step)).append (List.Sublist.refl [other])
      · exact (settled.ordered other parent old step).trans (List.sublist_append_left _ _)

omit [Heritable δ] in
theorem Lineage.wellFormed (records : ∀ entry ∈ declared, entry.2.WellFormed) {name : Text}
    {chain : List (Descriptor δ)} (lineage : Lineage declared name chain) :
    ∀ descriptor ∈ chain, descriptor.WellFormed := by
  intro descriptor member
  rcases lineage.exists_entry descriptor member with ⟨other, entry⟩
  exact records (other, descriptor) entry

/-- The records of well-formed descriptors are well formed. -/
theorem Settles.wellFormed (records : ∀ entry ∈ declared, entry.2.WellFormed) {name : Text}
    {record : Descriptor δ} (settles : Settles declared name record) : record.WellFormed := by
  rcases settles with ⟨own, above, lineage, rfl⟩
  exact .combineAll (lineage.wellFormed records)

/-- A child is settled by its own descriptor laid over the record of its
parent. -/
theorem Settles.child {name parent : Text} {descriptor base : Descriptor δ}
    (found : declared.get? name = some descriptor) (next : descriptor.parent = some parent)
    (above : Settles declared parent base) : Settles declared name (base.combine descriptor) := by
  rcases above with ⟨own, rest, lineage, rfl⟩
  exact ⟨descriptor, own :: rest, .child found next lineage, rfl⟩

variable [LawfulDetails δ]

/-- The part of a chain from a name on, where the name occurs once before. -/
theorem cycleFrom_eq {tail loop : List Text} {name : Text} (fresh : name ∉ tail) :
    cycleFrom (tail ++ name :: loop) name = name :: loop ++ [name] := by
  have passed : ∀ other ∈ tail, decide (other ≠ name) = true := by
    intro other member
    exact decide_eq_true fun same => fresh (same ▸ member)
  rw [cycleFrom, List.dropWhile_append_of_pos passed, List.dropWhile_cons_of_neg (by simp)]

/-- One ascent: it settles the name and its ancestors, or it fails as the obstacle
above its start says. -/
theorem resolve_spec (records : ∀ entry ∈ declared, entry.2.WellFormed)
    (settled : Settled declared flattened) (kind : DescriptorKind) (chain : List Text)
    (name : Text) (known : name ∈ declared.keys) (start : Text)
    (walk : Walk declared start (chain ++ [name])) (nodup : chain.Nodup) :
    (∃ record after, (resolve kind declared flattened chain name known).outcome =
        .ok (record, after) ∧ Settles declared name record ∧ Settled declared after ∧
          flattened.keys ⊆ after.keys ∧ name ∈ after.keys) ∨
      ∃ failure, (resolve kind declared flattened chain name known).outcome = .error failure ∧
        Obstacle kind declared start failure := by
  fun_induction resolve kind declared flattened chain name known with
  | case1 chain name known done found =>
      exact Or.inl ⟨done, flattened, rfl, settled.settles name done found, settled,
        List.Subset.refl _, OrderedMap.mem_keys_of_get?_eq_some found⟩
  | case2 chain name known _ passed =>
      rcases List.eq_append_cons_of_mem passed with ⟨tail, loop, split, fresh⟩
      subst split
      refine Or.inr ⟨_, rfl, ?_⟩
      rw [cycleFrom_eq fresh]
      exact .cycle tail name loop walk nodup
  | case3 chain name known _ _ descriptor last =>
      have found := OrderedMap.get?_eq_some_get declared name known
      have settles : Settles declared name descriptor := ⟨descriptor, [], .root found last, rfl⟩
      refine Or.inl ⟨descriptor, flattened.insert name descriptor, rfl, settles,
        settled.insert settles ?_, ?_, OrderedMap.mem_keys_insert.2 (Or.inl rfl)⟩
      · rintro parent ⟨other, again, next⟩
        cases found.symm.trans again
        cases last.symm.trans next
      · exact fun other member => OrderedMap.mem_keys_insert.2 (Or.inr member)
  | case4 chain name known _ fresh descriptor parent next defined ih =>
      have found := OrderedMap.get?_eq_some_get declared name known
      have step : Extends declared name parent := ⟨descriptor, found, next⟩
      have further : Walk declared start ((chain ++ [name]) ++ [parent]) := by
        refine ⟨by rw [List.head?_append, walk.starts]; rfl, ?_⟩
        apply walk.climbs.append (List.isChain_singleton _)
        intro lower isLast upper isFirst
        rw [List.getLast?_concat] at isLast
        cases isLast
        cases isFirst
        exact step
      have distinct : (chain ++ [name]).Nodup :=
        nodup.append (List.nodup_singleton _) (List.disjoint_singleton.2 fresh)
      rcases ih further distinct with ⟨base, middle, resolved, upper, kept, grown, there⟩ |
          ⟨failure, resolved, obstacle⟩
      · have own : descriptor.WellFormed :=
          records (name, descriptor) (OrderedMap.mem_of_get?_eq_some found)
        have settles := upper.child found next
        refine Or.inl ⟨base.combine descriptor, middle.insert name (base.combine descriptor),
          ?_, settles, kept.insert settles ?_, ?_, OrderedMap.mem_keys_insert.2 (Or.inl rfl)⟩
        · simp only [Report.outcome_bind, Report.outcome_note, Report.ok_bind, resolved,
            Report.outcome_liftM, Report.outcome_pure,
            Descriptor.inherit_eq_combine (upper.wellFormed records) own]
        · exact fun other otherStep => step.unique otherStep ▸ there
        · exact fun other member => OrderedMap.mem_keys_insert.2 (Or.inr (grown member))
      · refine Or.inr ⟨failure, ?_, obstacle⟩
        simp only [Report.outcome_bind, Report.outcome_note, Report.ok_bind, resolved,
          Report.error_bind]
  | case5 chain name known _ _ descriptor parent next missing =>
      have found := OrderedMap.get?_eq_some_get declared name known
      refine Or.inr ⟨_, rfl, .undefined chain name parent ?_ missing⟩
      refine ⟨?_, ?_⟩
      · have starts := walk.starts
        rw [List.head?_append] at starts ⊢
        exact starts
      · refine List.isChain_append_cons_cons.2 ⟨walk.climbs, ⟨descriptor, found, next⟩, ?_⟩
        exact List.isChain_singleton _

/-- The walk upwards from a name ends at a descriptor without a parent. -/
def Grounded (declared : Hierarchy δ) (name : Text) : Prop :=
  ∃ chain, Lineage declared name chain

/-- A run over some of the names: it settles all of them, or it fails at the first
that is not grounded. -/
theorem foldlM_flattenNext_spec (records : ∀ entry ∈ declared, entry.2.WellFormed)
    (kind : DescriptorKind) (names : List { name // name ∈ declared.keys })
    (settled : Settled declared flattened) :
    (∃ after, (names.foldlM (flattenNext kind declared) flattened).outcome = .ok after ∧
        Settled declared after ∧ flattened.keys ⊆ after.keys ∧
        ∀ name ∈ names, name.1 ∈ after.keys) ∨
      ∃ before first rest failure, names = before ++ first :: rest ∧
        (∀ earlier ∈ before, Grounded declared earlier.1) ∧
        Obstacle kind declared first.1 failure ∧
        (names.foldlM (flattenNext kind declared) flattened).outcome = .error failure := by
  induction names generalizing flattened with
  | nil =>
      exact Or.inl ⟨flattened, rfl, settled, List.Subset.refl _, by simp⟩
  | cons name rest ih =>
      have walk : Walk declared name.1 ([] ++ [name.1]) := ⟨rfl, List.isChain_singleton _⟩
      rw [List.foldlM_cons, Report.outcome_bind, flattenNext, Report.outcome_bind]
      rcases resolve_spec records settled kind [] name.1 name.2 name.1 walk List.nodup_nil with
        ⟨record, middle, resolved, settles, kept, grown, there⟩ | ⟨failure, resolved, obstacle⟩
      · simp only [resolved, Report.ok_bind, Report.outcome_pure]
        rcases ih kept with ⟨after, folded, done, further, all⟩ |
            ⟨before, first, others, failure, split, grounded, obstacle, folded⟩
        · refine Or.inl ⟨after, folded, done, fun _ member => further (grown member), ?_⟩
          intro other member
          rcases List.mem_cons.1 member with rfl | later
          · exact further there
          · exact all other later
        · refine Or.inr ⟨name :: before, first, others, failure, by rw [split]; rfl, ?_, obstacle,
            folded⟩
          intro earlier member
          rcases List.mem_cons.1 member with rfl | later
          · exact settles.exists_lineage
          · exact grounded earlier later
      · refine Or.inr ⟨[], name, rest, failure, rfl, by simp, obstacle, ?_⟩
        simp only [resolved, Report.error_bind]

/-- The whole run: all names are settled and nothing else is, or some name meets an
obstacle and all before it are grounded. -/
theorem flatten_spec (wellFormed : WellFormed declared) (kind : DescriptorKind) :
    (∃ flattened, (flatten kind declared).outcome = .ok flattened ∧
      Settled declared flattened ∧ flattened.keys.Perm declared.keys) ∨
    ∃ before name after failure, declared.keys = before ++ name :: after ∧
      (∀ earlier ∈ before, Grounded declared earlier) ∧
      Obstacle kind declared name failure ∧
      (flatten kind declared).outcome = .error failure := by
  rcases foldlM_flattenNext_spec wellFormed.records kind declared.keys.attach Settled.nil with
    ⟨flattened, folded, settled, _, all⟩ |
    ⟨before, first, rest, failure, split, grounded, obstacle, folded⟩
  · refine Or.inl ⟨flattened, folded, settled, ?_⟩
    apply (List.perm_ext_iff_of_nodup settled.distinct wellFormed.distinct).2
    intro name
    constructor
    · intro member
      rcases OrderedMap.exists_get?_of_mem_keys member with ⟨record, found⟩
      rcases (settled.settles name record found).exists_lineage with ⟨chain, lineage⟩
      exact lineage.mem_keys
    · intro member
      exact all ⟨name, member⟩ (List.mem_attach _ _)
  · refine Or.inr ⟨before.map Subtype.val, first.1, rest.map Subtype.val, failure, ?_, ?_,
      obstacle, folded⟩
    · have names := congrArg (List.map Subtype.val) split
      rwa [List.attach_map_subtype_val, List.map_append, List.map_cons] at names
    · intro earlier member
      rcases List.mem_map.1 member with ⟨name, within, rfl⟩
      exact grounded name within

/-! ## When flattening succeeds, and how it fails -/

theorem grounded_of_flatten (wellFormed : WellFormed declared) {kind : DescriptorKind}
    (success : (flatten kind declared).outcome = .ok flattened) :
    Settled declared flattened ∧ flattened.keys.Perm declared.keys ∧
      ∀ name ∈ declared.keys, Grounded declared name := by
  rcases flatten_spec wellFormed kind with ⟨other, flattens, settled, names⟩ |
    ⟨_, _, _, failure, _, _, _, fails⟩
  · cases success.symm.trans flattens
    refine ⟨settled, names, fun name member => ?_⟩
    rcases OrderedMap.exists_get?_of_mem_keys (names.mem_iff.mpr member) with ⟨record, found⟩
    exact (settled.settles name record found).exists_lineage
  · cases success.symm.trans fails

theorem exists_flatten_of_grounded (wellFormed : WellFormed declared) (kind : DescriptorKind)
    (grounded : ∀ name ∈ declared.keys, Grounded declared name) :
    ∃ flattened, (flatten kind declared).outcome = .ok flattened := by
  rcases flatten_spec wellFormed kind with ⟨flattened, flattens, _⟩ |
    ⟨before, name, after, failure, split, _, obstacle, _⟩
  · exact ⟨flattened, flattens⟩
  · rcases grounded name (split ▸ by simp) with ⟨chain, lineage⟩
    exact absurd obstacle lineage.not_obstacle

/-- Every obstacle is a fault of the schema. -/
theorem isSchemaFault_of_flatten (wellFormed : WellFormed declared) {kind : DescriptorKind}
    {failure : Failure} (failed : (flatten kind declared).outcome = .error failure) :
    failure.isSchemaFault = true := by
  rcases flatten_spec wellFormed kind with ⟨_, flattens, _⟩ |
    ⟨_, _, _, other, _, _, obstacle, fails⟩
  · cases failed.symm.trans flattens
  · cases failed.symm.trans fails
    cases obstacle <;> rfl

omit [Heritable δ] [LawfulDetails δ] in
theorem reads_resolve (kind : DescriptorKind) (declared flattened : Hierarchy δ)
    (chain : List Text) (name : Text) (known : name ∈ declared.keys) :
    (resolve kind declared flattened chain name known).reads = [] := by
  fun_induction resolve kind declared flattened chain name known with
  | case1 => rfl
  | case2 => rfl
  | case3 => rfl
  | case4 chain name known missing fresh descriptor parent next defined ih =>
      apply Report.reads_bind_eq_nil (Report.reads_note _ _)
      intro _
      apply Report.reads_bind_eq_nil ih
      intro _
      exact Report.reads_bind_eq_nil (Report.reads_liftM _) fun _ => Report.reads_pure _
  | case5 => rfl

omit [Heritable δ] [LawfulDetails δ] in
/-- Flattening reads no files. -/
theorem reads_flatten (kind : DescriptorKind) (declared : Hierarchy δ) :
    (flatten kind declared).reads = [] := by
  refine Report.reads_foldlM_eq_nil (fun flattened name => ?_) _ _
  exact Report.reads_bind_eq_nil (reads_resolve kind declared flattened [] name.1 name.2)
    fun _ => Report.reads_pure _

/-- Flattening succeeds exactly when the walk up from every name ends at a descriptor
without a parent.  Then the names are those declared, each once and after its
parent.  It fails with the obstacle of the first name, in the order of declaration,
whose walk does not end so. -/
theorem flatten_outcome (kind : DescriptorKind) (declared : Hierarchy δ)
    (wellFormed : WellFormed declared) :
    ((∃ flattened, (flatten kind declared).outcome = .ok flattened) ↔
      ∀ name ∈ declared.keys, Grounded declared name) ∧
    (forall flattened : Hierarchy δ, (flatten kind declared).outcome = .ok flattened ->
      flattened.keys.Nodup ∧ flattened.keys.Perm declared.keys ∧
        forall name parent : Text, Extends declared name parent ->
          [parent, name].Sublist flattened.keys) ∧
    (forall failure : Failure, (flatten kind declared).outcome = .error failure ↔
      ∃ before name after, declared.keys = before ++ name :: after ∧
        (∀ earlier ∈ before, Grounded declared earlier) ∧
        Obstacle kind declared name failure) := by
  refine ⟨⟨?_, ?_⟩, ?_, fun failure => ⟨?_, ?_⟩⟩
  · rintro ⟨flattened, success⟩
    exact (grounded_of_flatten wellFormed success).2.2
  · exact exists_flatten_of_grounded wellFormed kind
  · intro flattened success
    rcases grounded_of_flatten wellFormed success with ⟨settled, names, _⟩
    exact ⟨settled.distinct, names, fun name parent step =>
      settled.ordered name parent (names.mem_iff.mpr step.mem_keys) step⟩
  · intro fails
    rcases flatten_spec wellFormed kind with ⟨flattened, flattens, _⟩ |
      ⟨before, name, after, other, split, grounded, obstacle, failed⟩
    · cases fails.symm.trans flattens
    · cases fails.symm.trans failed
      exact ⟨before, name, after, split, grounded, obstacle⟩
  · rintro ⟨before, name, after, split, grounded, obstacle⟩
    rcases flatten_spec wellFormed kind with ⟨flattened, flattens, _⟩ |
      ⟨earlier, first, rest, other, otherSplit, otherGrounded, otherObstacle, failed⟩
    · rcases (grounded_of_flatten wellFormed flattens).2.2 name (split ▸ by simp) with ⟨_, lineage⟩
      exact absurd obstacle lineage.not_obstacle
    · -- Neither name may be among those before the other, which are grounded.
      have here : first = name := by
        rcases List.append_eq_append_iff.mp (split.symm.trans otherSplit) with
          ⟨between, longer, tails⟩ | ⟨between, longer, tails⟩
        · cases between with
          | nil => exact (List.cons.inj tails).1.symm
          | cons head others =>
              rcases otherGrounded name (longer ▸ (List.cons.inj tails).1 ▸ by simp) with
                ⟨_, lineage⟩
              exact absurd obstacle lineage.not_obstacle
        · cases between with
          | nil => exact (List.cons.inj tails).1
          | cons head others =>
              rcases grounded first (longer ▸ (List.cons.inj tails).1 ▸ by simp) with ⟨_, lineage⟩
              exact absurd otherObstacle lineage.not_obstacle
      subst here
      rw [failed, obstacle.unique otherObstacle]

/-- A class that says nothing but its type and its parent. -/
def bareClass (type : Text) (parent : Option Text) : ClassDescriptor where
  type := type
  name := none
  caption := none
  description := none
  parent := parent
  attributes := []
  details := ⟨none, none, none⟩
  extra := []

/-- A class that leads into a cycle of two others is not part of the reported
chain. -/
theorem flatten_outcome_tail_into_cycle :
    let declared : Hierarchy ClassDetails :=
      [("a", bareClass "a" (some "b")), ("b", bareClass "b" (some "c")),
        ("c", bareClass "c" (some "b"))]
    WellFormed declared ∧ (flatten .eventClass declared).outcome =
      .error (.cyclicParents .eventClass ["b", "c", "b"]) := by
  intro declared
  have wellFormed : WellFormed declared := by decide
  have walk : Walk declared "a" ["a", "b", "c", "b"] := by
    refine ⟨rfl, ?_⟩
    simp only [List.isChain_cons_cons, List.isChain_singleton, and_true]
    exact ⟨⟨_, rfl, rfl⟩, ⟨_, rfl, rfl⟩, ⟨_, rfl, rfl⟩⟩
  refine ⟨wellFormed, ((flatten_outcome .eventClass declared wellFormed).2.2 _).2 ?_⟩
  exact ⟨[], "a", ["b", "c"], rfl, by simp, .cycle ["a"] "b" ["c"] walk (by decide)⟩

end Inheritance
end EventSchema
