import EventSchema.Proofs.Inclusion.Memory

namespace EventSchema
namespace Session

/-!
# Descriptors that share their fragments

Descriptors are expanded one after another, and the later ones find the fragments that
the earlier ones have read, also where one fails midway.  Every descriptor fares as it
would alone, and a fragment that can be read is read once for all of them.

The second part rests on the balance of a session (`ReadsOnce`): a file that holds an
object is read exactly when it becomes known.
-/

variable {α : Type} {tree : SchemaTree}

/-- Expand descriptors one after another, each under the name of its owner.  A failure ends
the expansion of its descriptor only. -/
def expandAll (tree : SchemaTree) (calls : List (Text × Fields)) :
    Session (List (Except Failure Fields)) :=
  calls.mapM fun call => (expand tree call.1 call.2).attempt

theorem fetches_expandAll (tree : SchemaTree) (calls : List (Text × Fields)) :
    Fetches tree (expandAll tree calls)
      (calls.mapM fun call =>
        (Inclusion.expand (Inclusion.readFragment tree) call.1 call.2).attempt) :=
  Fetches.mapM (fun call => (Inclusion.fetches_expand call.1 call.2).attempt) calls

/-- Attempts in a row never fail. -/
theorem outcome_mapM_attempt {β : Type} (step : α -> Report β) (entries : List α) :
    (entries.mapM fun entry => (step entry).attempt).outcome =
      .ok (entries.map fun entry => (step entry).outcome) := by
  rw [Report.outcome_mapM, Outcome.mapM_eq_ok_iff, List.forall₂_map_right_iff, List.forall₂_same]
  exact fun entry _ => Report.outcome_attempt (step entry)

/-! ## What is read becomes known -/

/-- The balance of a session: a file that holds an object is read as often as it becomes
known, and nothing is known twice. -/
structure ReadsOnce (tree : SchemaTree) (session : Session α) : Prop where
  balance : forall (known : Fragments) (path : Path) (fields : Fields), tree.Holds path fields ->
    (session known).1.reads.count path + known.keys.count path = (session known).2.keys.count path
  distinct : forall known : Fragments, known.Distinct -> (session known).2.Distinct

section Fetch

variable {owner reference : Text}

/-- A fragment is read from its file, unless the search for it fails before. -/
theorem reads_readFragment (tree : SchemaTree) (owner reference : Text) :
    ((Inclusion.readFragment tree owner reference).reads = [] ∧
        forall fragment : Fields,
          (Inclusion.readFragment tree owner reference).outcome ≠ .ok fragment) ∨
      (Inclusion.readFragment tree owner reference).reads = [Inclusion.locate tree reference] ∧
        (Inclusion.readFragment tree owner reference).outcome =
          (tree.readObject (Inclusion.locate tree reference)).outcome := by
  have looks : (tree.isFile (Inclusion.locate tree reference)).reads = [] := rfl
  unfold Inclusion.readFragment
  rw [Report.reads_bind, Report.outcome_bind, looks, List.nil_append]
  cases (tree.isFile (Inclusion.locate tree reference)).outcome with
  | error failure => exact Or.inl ⟨rfl, fun _ same => by cases same⟩
  | ok there =>
      cases there with
      | false => exact Or.inl ⟨rfl, fun _ same => by cases same⟩
      | true => exact Or.inr ⟨SchemaTree.reads_readObject _, rfl⟩

theorem reads_of_read {fragment : Fields}
    (read : (Inclusion.readFragment tree owner reference).outcome = .ok fragment) :
    (Inclusion.readFragment tree owner reference).reads = [Inclusion.locate tree reference] := by
  rcases reads_readFragment tree owner reference with ⟨_, never⟩ | ⟨reads, _⟩
  · exact absurd read (never fragment)
  · exact reads

/-- A failed attempt reads no file that holds an object. -/
theorem count_reads_of_error {failure : Failure} {path : Path} {fields : Fields}
    (failed : (Inclusion.readFragment tree owner reference).outcome = .error failure)
    (holds : tree.Holds path fields) :
    (Inclusion.readFragment tree owner reference).reads.count path = 0 := by
  rcases reads_readFragment tree owner reference with ⟨silent, _⟩ | ⟨reads, same⟩
  · rw [silent, List.count_nil]
  · rw [reads, List.count_eq_zero, List.mem_singleton]
    rintro rfl
    rw [same, SchemaTree.readObject_eq_ok_iff.mpr holds] at failed
    cases failed

end Fetch

namespace ReadsOnce

variable {β : Type}

theorem ofReport {report : Report α} (silent : report.reads = []) :
    ReadsOnce tree (Session.ofReport report) where
  balance known path fields _ := by
    show report.reads.count path + _ = _
    rw [silent, List.count_nil, Nat.zero_add]
    rfl
  distinct _ distinct := distinct

theorem fetch (owner reference : Text) : ReadsOnce tree (Session.fetch tree owner reference) where
  balance known path fields holds := by
    cases found : known.get? (Inclusion.locate tree reference) with
    | some fragment =>
        rw [fetch_of_known found, Report.reads_pure, List.count_nil, Nat.zero_add]
    | none =>
        have fresh := (OrderedMap.get?_eq_none_iff known _).1 found
        cases read : (Inclusion.readFragment tree owner reference).outcome with
        | ok fragment =>
            rw [fetch_of_read found read, reads_of_read read, OrderedMap.keys_insert, if_neg fresh,
              List.count_append, Nat.add_comm]
        | error failure =>
            rw [fetch_of_error found read, count_reads_of_error read holds, Nat.zero_add]
  distinct known distinct := by
    cases found : known.get? (Inclusion.locate tree reference) with
    | some fragment =>
        rw [fetch_of_known found]
        exact distinct
    | none =>
        cases read : (Inclusion.readFragment tree owner reference).outcome with
        | ok fragment =>
            rw [fetch_of_read found read]
            exact distinct.insert _ fragment
        | error failure =>
            rw [fetch_of_error found read]
            exact distinct

theorem bind {session : Session α} {next : α -> Session β} (first : ReadsOnce tree session)
    (further : forall value : α, ReadsOnce tree (next value)) :
    ReadsOnce tree (session >>= next) where
  balance known path fields holds := by
    have before := first.balance known path fields holds
    rw [fst_bind, snd_bind, Report.reads_bind, List.count_append]
    cases (session known).1.outcome with
    | error failure => rw [List.count_nil, Nat.add_zero, before]
    | ok value =>
        -- The second part balances against what the first one has remembered.
        have after := (further value).balance (session known).2 path fields holds
        dsimp only
        omega
  distinct known distinct := by
    rw [snd_bind]
    split
    · exact (further _).distinct _ (first.distinct known distinct)
    · exact first.distinct known distinct

theorem attempt {session : Session α} (tried : ReadsOnce tree session) :
    ReadsOnce tree session.attempt :=
  ⟨tried.balance, tried.distinct⟩

end ReadsOnce

theorem Fetches.readsOnce {session : Session α} {report : Report α}
    (fetches : Fetches tree session report) : ReadsOnce tree session := by
  induction fetches with
  | report _ silent => exact ReadsOnce.ofReport silent
  | fetch owner reference => exact ReadsOnce.fetch owner reference
  | bind _ _ first further => exact first.bind further
  | attempt _ tried => exact tried.attempt

/-- A session that starts with nothing in mind reads no object twice. -/
theorem ReadsOnce.count_reads_le_one {session : Session α} (once : ReadsOnce tree session)
    {path : Path} {fields : Fields} (holds : tree.Holds path fields) :
    (session []).1.reads.count path ≤ 1 := by
  have nodup : (session []).2.keys.Nodup := once.distinct [] List.nodup_nil
  have balance : (session []).1.reads.count path = (session []).2.keys.count path :=
    once.balance [] path fields holds
  rw [balance]
  exact List.nodup_iff_count_le_one.mp nodup path

/-- Descriptors that are expanded one after another fare as they would alone, whether they
succeed or fail, and a fragment that can be read is read at most once for all of them. -/
theorem expandAll_shares_fragments (tree : SchemaTree) (calls : List (Text × Fields)) :
    (expandAll tree calls []).1.outcome =
        .ok (calls.map fun call => (expand tree call.1 call.2 []).1.outcome) ∧
      forall (path : Path) (fields : Fields), tree.Holds path fields ->
        (expandAll tree calls []).1.reads.count path ≤ 1 := by
  have fetches := fetches_expandAll tree calls
  constructor
  · rw [fetches.follows.outcome [] faithful_nil, outcome_mapM_attempt]
    refine congrArg Except.ok (List.map_congr_left fun call _ => ?_)
    exact ((Inclusion.fetches_expand call.1 call.2).follows.outcome [] faithful_nil).symm
  · intro path fields holds
    exact fetches.readsOnce.count_reads_le_one holds

/-- A schema with a fragment that two descriptors include. -/
def sharedFragmentTree : MemoryTree where
  files := [(Path.parse "s/f.json", "\x7b\"x\": 1\x7d")]
  unreadable := []

/-- The first descriptor also includes a file that is not there; the second one includes the
fragment under two spellings of its path. -/
def sharingCalls : List (Text × Fields) :=
  [("a", [("$include", .arr [.str "f.json", .str "g.json"])]),
   ("b", [("$include", .str "./f.json"),
     ("attributes", .obj [("u", .obj [("$include", .str "f.json")])])])]

/-- The fragment that the failing descriptor has read serves the second one. -/
theorem expandAll_shares_fragments_after_failure :
    let tree := SchemaTree.below sharedFragmentTree.source (Path.parse "s") "extensions"
    let fragment : Fields := [("x", .int 1)]
    tree.Holds (Path.parse "s/f.json") fragment ∧
      (expandAll tree sharingCalls []).1.outcome.toOption =
        some [.error (.missingInclude "a" (Path.parse "s/g.json")),
          .ok [("x", .int 1), ("attributes", .obj [("u", .obj fragment)])]] ∧
      (expandAll tree sharingCalls []).1.reads = [Path.parse "s/f.json"] ∧
      (expandAll tree sharingCalls []).1.outcome =
        .ok (sharingCalls.map fun call => (expand tree call.1 call.2 []).1.outcome) ∧
      (expandAll tree sharingCalls []).1.reads.count (Path.parse "s/f.json") ≤ 1 := by
  intro tree fragment
  have holds : tree.Holds (Path.parse "s/f.json") fragment :=
    ⟨"\x7b\"x\": 1\x7d", by decide +kernel, by decide +kernel⟩
  have computed : (expandAll tree sharingCalls []).1.outcome.toOption =
        some [.error (.missingInclude "a" (Path.parse "s/g.json")),
          .ok [("x", .int 1), ("attributes", .obj [("u", .obj fragment)])]] ∧
      (expandAll tree sharingCalls []).1.reads = [Path.parse "s/f.json"] := by
    decide +kernel
  have shared := expandAll_shares_fragments tree sharingCalls
  exact ⟨holds, computed.1, computed.2, shared.1, shared.2 _ _ holds⟩

end Session
end EventSchema
