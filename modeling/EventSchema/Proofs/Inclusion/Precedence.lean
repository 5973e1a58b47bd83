import EventSchema.Proofs.Inclusion.Views

namespace EventSchema
namespace Inclusion

/-!
# Which layer of a descriptor wins

What an expanded descriptor shows at a place is what one of its layers shows there.  The
descriptor's own content is always kept, and where the layers do not clash on the way to a
place the topmost of them wins.  Each of the three is proved for one step, which lays an
object over fragments, and then for the steps in a row.
-/

open Json

variable {fragments? : Option (List Fields)} {fields : Fields} {place : List Text}
  {content : Option Json}

/-! ## An object over fragments -/

theorem shown?_lay_of_shown? (keyed : Json.Keyed (.obj fields)) (unserved : ¬Served fragments? place)
    (shows : shown? (.obj fields) place = some content) :
    shown? (.obj (lay fragments? fields)) place = some content := by
  cases fragments? with
  | none => exact shows
  | some fragments =>
      refine Fields.shown?_merge_of_shown? (keyed.erase directive) ?_
      rw [Fields.shown?_erase, if_neg fun head => unserved ⟨rfl, head⟩]
      exact shows

/-- What is shown is shown by a fragment, or by the object and not below its directive. -/
theorem shown?_of_shown?_lay (keyed : Json.Keyed (.obj fields)) (lower : AllKeyed fragments?)
    (shows : shown? (.obj (lay fragments? fields)) place = some content) :
    (∃ fragment ∈ fragments?.getD [], shown? (.obj fragment) place = some content) ∨
      ¬Served fragments? place ∧ shown? (.obj fields) place = some content := by
  cases fragments? with
  | none => exact Or.inr ⟨by simp [Served], shows⟩
  | some fragments =>
      cases place with
      | nil => exact Or.inr ⟨not_served_nil, shows⟩
      | cons key rest =>
          rcases Fields.shown?_of_shown?_merge (keyed.erase directive) shows with below | above
          · exact Or.inl (Fields.exists_shown?_of_mergeAll (lower fragments rfl) below)
          · rw [Fields.shown?_erase] at above
            split at above
            · cases above
            · next other => exact Or.inr ⟨fun served => other served.2, above⟩

theorem mem_under_of_shown?_lay (keyed : Json.Keyed (.obj fields)) (lower : AllKeyed fragments?)
    (shows : shown? (.obj (lay fragments? fields)) place = some content) {upper : List View}
    (own : shown? (.obj fields) place = some content -> some content ∈ upper) :
    some content ∈
      under fragments? (fun fragment => shown? (.obj fragment) place) place upper := by
  rcases shown?_of_shown?_lay keyed lower shows with ⟨fragment, member, found⟩ | ⟨kept, above⟩
  · exact List.mem_append_left _ (List.mem_map.mpr ⟨fragment, member, found⟩)
  · exact mem_under_of_mem kept (own above)

/-- Without its directive an object shows what it showed, unless the place lies below the
directive. -/
theorem shown?_erase_directive {fragments : List Fields} {views : List View}
    (own : ¬Served (some fragments) place -> shown? (.obj fields) place = topmost views) :
    shown? (.obj (OrderedMap.erase fields directive)) place =
      topmost (if Served (some fragments) place then [] else views) := by
  rw [Fields.shown?_erase]
  by_cases head : place.head? = some directive
  · have served : Served (some fragments) place := ⟨rfl, head⟩
    rw [if_pos head, if_pos served, topmost_nil]
  · have unserved : ¬Served (some fragments) place := fun served => head served.2
    rw [if_neg head, if_neg unserved, own unserved]

/-- Where the views of a place do not clash, what is on top of them is shown. -/
theorem shown?_lay (keyed : Json.Keyed (.obj fields)) (lower : AllKeyed fragments?)
    (upper : List Text -> List View) (given : place ≠ [])
    (own : forall start : List Text, start <+: place -> start ≠ [] -> ¬Served fragments? start ->
      shown? (.obj fields) start = topmost (upper start))
    (agree : forall start : List Text, start <+: place -> start ≠ [] ->
      ¬Clash (under fragments? (fun fragment => shown? (.obj fragment) start) start (upper start))) :
    shown? (.obj (lay fragments? fields)) place =
      topmost (under fragments? (fun fragment => shown? (.obj fragment) place) place
        (upper place)) := by
  cases fragments? with
  | none =>
      rw [under_none]
      exact own place List.prefix_rfl given (by simp [Served])
  | some fragments =>
      refine Fields.shown?_merge_eq_topmost (keyed.erase directive) given
        (fun start => fragments.map fun fragment => shown? (.obj fragment) start)
        (fun start => if Served (some fragments) start then [] else upper start) ?_ ?_ agree
      · intro start leads something
        refine Fields.shown?_mergeAll (lower fragments rfl) something fun inner further some clash => ?_
        exact agree inner (further.trans leads) some
          (clash.mono fun _ shown => List.mem_append_left _ shown)
      · exact fun start leads something => shown?_erase_directive (own start leads something)

namespace Layers

variable {layers : Layers} {tree : SchemaTree} {path : List Text} {name : Text}

/-! ## Nothing is invented -/

/-- What a fragment contributes among attributes is what it shows there. -/
theorem shown?_contribution (fragment : Fields) (name : Text) (rest : List Text) :
    shown? (.obj (contribution fragment)) (name :: rest) =
      shown? (.obj fragment) ("attributes" :: name :: rest) := by
  rw [shown?_obj_cons fragment, contribution, attributesOf]
  cases OrderedMap.get? fragment "attributes" with
  | none => rfl
  | some value => cases value <;> rfl

theorem under_contributions (given : place ≠ []) (upper : List View) :
    under (fragments?.map (List.map contribution)) (fun object => shown? (.obj object) place) place
        upper =
      under fragments? (fun fragment => shown? (.obj fragment) ("attributes" :: place)) place
        upper := by
  cases place with
  | nil => exact absurd rfl given
  | cons name rest =>
      cases fragments? with
      | none => rfl
      | some fragments =>
          simp only [under, Served, Option.map_some, Option.isSome_some, Option.getD_some,
            List.map_map, Function.comp_def, shown?_contribution]

/-- An object within which the attributes lie shows them as an object. -/
theorem shown?_whole_attributes {lower : Fields} (inside : attributesIn layers.whole = some lower)
    (place : List Text) :
    shown? (.obj layers.whole) ("attributes" :: place) = shown? (.obj lower) place :=
  shown?_of_get? (attributesIn_eq_some_iff.mp inside) place

theorem mem_viewsOfRoot (keyed : layers.Keyed)
    (shows : shown? (.obj layers.whole) path = some content) :
    some content ∈ layers.viewsOfRoot path :=
  mem_under_of_shown?_lay keyed.own keyed.root shows fun own => List.mem_singleton.mpr own.symm

theorem mem_viewsAmong (keyed : layers.Keyed) {attributes : Fields}
    (laid : layers.attributes? = some attributes)
    (shows : shown? (.obj attributes) place = some content) :
    some content ∈ layers.viewsAmong place := by
  rcases Option.map_eq_some_iff.mp laid with ⟨lower, inside, rfl⟩
  have below := shown?_whole_attributes inside place
  cases place with
  | nil => exact mem_under_of_mem not_served_nil (mem_viewsOfRoot keyed (below.trans shows))
  | cons name rest =>
      rw [viewsAmong, ← under_contributions (List.cons_ne_nil name rest)]
      exact mem_under_of_shown?_lay (keyed.lower inside) (allKeyed_contributions keyed.among) shows
        fun own => mem_viewsOfRoot keyed (below.trans own)

theorem mem_viewsWithin (keyed : layers.Keyed) {attributes definition : Fields}
    (laid : layers.attributes? = some attributes)
    (held : attributes.get? name = some (.obj definition))
    (shows : shown? (.obj (lay (layers.within name) definition)) place = some content) :
    some content ∈ layers.viewsWithin name place :=
  mem_under_of_shown?_lay ((keyed.attributes laid).of_get? held) (keyed.within name) shows
    fun own => mem_viewsAmong keyed laid ((shown?_of_get? held place).trans own)

/-- What is shown together at a place, a layer shows there. -/
theorem mem_views_of_shown?_expanded (included : layers.Included tree) (keyed : layers.Keyed) :
    forall path : List Text, shown? (.obj layers.expanded) path = some content ->
      some content ∈ layers.views path := by
  refine included.views_cases (motive := fun _ view views => view = some content ->
    some content ∈ views) ?root ?attributes ?plain ?defined
  case root => exact fun path _ => mem_viewsOfRoot keyed
  case attributes => exact fun own laid => mem_viewsAmong keyed laid
  case plain => exact fun own name place laid _ => mem_viewsAmong keyed laid
  case defined => exact fun own definition name place laid held => mem_viewsWithin keyed laid held

/-! ## The descriptor's own content -/

/-- A place below a directive key of the root, of the attributes or of an attribute. -/
def BelowDirective (path : List Text) : Prop :=
  ∃ rest : List Text, path = directive :: rest ∨ path = inAttribute directive rest ∨
    ∃ name : Text, path = inAttribute name (directive :: rest)

theorem not_served_of_not_below (outside : ¬BelowDirective path) : ¬Served fragments? path := by
  rintro ⟨_, head⟩
  rcases path with _ | ⟨key, rest⟩
  · cases head
  · cases head
    exact outside ⟨rest, Or.inl rfl⟩

/-- What the descriptor itself shows is kept, except below its directives. -/
theorem shown?_expanded_of_own (included : layers.Included tree) (keyed : layers.Keyed) :
    forall path : List Text, ¬BelowDirective path ->
      shown? (.obj layers.own) path = some content ->
        shown? (.obj layers.expanded) path = some content := by
  have root : forall path : List Text, ¬BelowDirective path ->
      shown? (.obj layers.own) path = some content ->
        shown? (.obj layers.whole) path = some content := fun path outside shows =>
    shown?_lay_of_shown? keyed.own (not_served_of_not_below outside) shows
  have inner : forall (attributes : Fields) (name : Text) (place : List Text),
      layers.attributes? = some attributes -> ¬BelowDirective (inAttribute name place) ->
        shown? (.obj layers.own) (inAttribute name place) = some content ->
          shown? (.obj attributes) (name :: place) = some content := by
    intro attributes name place laid outside shows
    rcases Option.map_eq_some_iff.mp laid with ⟨lower, inside, rfl⟩
    apply shown?_lay_of_shown? (keyed.lower inside)
    · rintro ⟨_, head⟩
      cases head
      exact outside ⟨place, Or.inr (Or.inl rfl)⟩
    · exact (shown?_whole_attributes inside _).symm.trans (root _ outside shows)
  refine included.views_cases (motive := fun path view _ => ¬BelowDirective path ->
    shown? (.obj layers.own) path = some content -> view = some content)
    ?root ?attributes ?plain ?defined
  case root => exact fun path _ => root path
  case attributes =>
    intro own laid outside shows
    rcases Option.map_eq_some_iff.mp laid with ⟨lower, inside, rfl⟩
    exact (shown?_whole_attributes inside []).symm.trans (root _ outside shows)
  case plain => exact fun own name place laid _ => inner own name place laid
  case defined =>
    intro own definition name place laid held outside shows
    apply shown?_lay_of_shown? ((keyed.attributes laid).of_get? held)
    · rintro ⟨_, head⟩
      rcases place with _ | ⟨key, rest⟩
      · cases head
      · cases head
        exact outside ⟨rest, Or.inr (Or.inr ⟨name, rfl⟩)⟩
    · exact (shown?_of_get? held place).symm.trans (inner own name place laid outside shows)

/-! ## The topmost layer -/

theorem shown?_whole_eq_topmost (keyed : layers.Keyed) {path : List Text} (given : path ≠ [])
    (agree : forall start : List Text, start <+: path -> start ≠ [] ->
      ¬Clash (layers.viewsOfRoot start)) :
    shown? (.obj layers.whole) path = topmost (layers.viewsOfRoot path) := by
  refine shown?_lay keyed.own keyed.root (fun start => [shown? (.obj layers.own) start]) given
    (fun start _ _ _ => ?_) agree
  rw [topmost_singleton]

theorem shown?_attributes_eq_topmost (keyed : layers.Keyed) {attributes : Fields}
    (laid : layers.attributes? = some attributes)
    (agree : forall start : List Text, start <+: place -> ¬Clash (layers.viewsAmong start)) :
    shown? (.obj attributes) place = topmost (layers.viewsAmong place) := by
  rcases Option.map_eq_some_iff.mp laid with ⟨lower, inside, rfl⟩
  have below : forall start : List Text, start <+: place -> ¬Served layers.among start ->
      shown? (.obj lower) start = topmost (layers.viewsOfRoot ("attributes" :: start)) := by
    intro start leads unserved
    rw [← shown?_whole_attributes inside]
    refine shown?_whole_eq_topmost keyed (List.cons_ne_nil _ _) fun path further given clash => ?_
    rcases path with _ | ⟨key, inner⟩
    · exact given rfl
    · rcases List.cons_prefix_cons.mp further with ⟨rfl, within⟩
      refine agree inner (within.trans leads) (clash.mono fun content shown => ?_)
      exact mem_under_of_mem (not_served_of_leads unserved within) shown
  -- Contributions are objects in any case, so at the attributes themselves they may show more
  -- than their fragments do.  There the attributes below the directive decide.
  rcases place with _ | ⟨name, rest⟩
  · exact (topmost_under not_served_nil (below [] List.prefix_rfl not_served_nil).symm).symm
  · rw [viewsAmong, ← under_contributions (List.cons_ne_nil name rest)]
    refine shown?_lay (keyed.lower inside) (allKeyed_contributions keyed.among)
      (fun start => layers.viewsOfRoot ("attributes" :: start)) (List.cons_ne_nil name rest) ?_ ?_
    · intro start leads _ unserved
      exact below start leads fun served => unserved (served_map_iff.mpr served)
    · intro start leads given
      rw [under_contributions given]
      exact agree start leads

theorem shown?_definition_eq_topmost (keyed : layers.Keyed) {attributes definition : Fields}
    (laid : layers.attributes? = some attributes)
    (held : attributes.get? name = some (.obj definition)) (first : ¬Clash (layers.viewsAmong []))
    (agree : forall start : List Text, start <+: place -> ¬Clash (layers.viewsWithin name start)) :
    shown? (.obj (lay (layers.within name) definition)) place =
      topmost (layers.viewsWithin name place) := by
  have below : forall start : List Text, start <+: place -> ¬Served (layers.within name) start ->
      shown? (.obj definition) start = topmost (layers.viewsAmong (name :: start)) := by
    intro start leads unserved
    rw [← shown?_of_get? held]
    refine shown?_attributes_eq_topmost keyed laid fun path further clash => ?_
    rcases path with _ | ⟨key, inner⟩
    · exact first clash
    · rcases List.cons_prefix_cons.mp further with ⟨rfl, within⟩
      refine agree inner (within.trans leads) (clash.mono fun content shown => ?_)
      exact mem_under_of_mem (not_served_of_leads unserved within) shown
  rcases place with _ | ⟨key, rest⟩
  · exact (topmost_under not_served_nil (below [] List.prefix_rfl not_served_nil).symm).symm
  · exact shown?_lay ((keyed.attributes laid).of_get? held) (keyed.within name)
      (fun start => layers.viewsAmong (name :: start)) (List.cons_ne_nil key rest)
      (fun start leads _ unserved => below start leads unserved) fun start leads _ => agree start leads

/-- The topmost layer wins at a place to which no two layers clash on the way. -/
theorem shown?_expanded_eq_topmost (included : layers.Included tree) (keyed : layers.Keyed) :
    forall path : List Text, layers.Agree path ->
      shown? (.obj layers.expanded) path = topmost (layers.views path) := by
  have first : forall path : List Text, layers.Agree ("attributes" :: path) ->
      ¬Clash (layers.viewsAmong []) := by
    intro path agree
    rw [← views_attributes]
    exact agree _ (List.cons_prefix_cons.mpr ⟨rfl, List.nil_prefix⟩)
  have within : forall (name : Text) (place : List Text), layers.Agree (inAttribute name place) ->
      forall start : List Text, start <+: place -> ¬Clash (layers.viewsWithin name start) := by
    intro name place agree start leads
    rw [← views_attribute]
    exact agree _ (List.cons_prefix_cons.mpr ⟨rfl, List.cons_prefix_cons.mpr ⟨rfl, leads⟩⟩)
  refine included.views_cases (motive := fun path view views => layers.Agree path ->
    view = topmost views) ?root ?attributes ?plain ?defined
  case root =>
    intro path same agree
    rcases path with _ | ⟨key, rest⟩
    · exact (topmost_under not_served_nil (topmost_singleton (some none))).symm
    · refine shown?_whole_eq_topmost keyed (List.cons_ne_nil key rest) fun start leads _ => ?_
      rw [← same start leads]
      exact agree start leads
  case attributes =>
    intro own laid agree
    refine shown?_attributes_eq_topmost keyed laid fun start leads => ?_
    rw [List.prefix_nil.mp leads]
    exact first [] agree
  case plain =>
    intro own name place laid missing agree
    refine shown?_attributes_eq_topmost keyed laid fun start leads => ?_
    rcases start with _ | ⟨key, inner⟩
    · exact first _ agree
    · rcases List.cons_prefix_cons.mp leads with ⟨rfl, further⟩
      rw [← included.viewsWithin_of_none missing]
      exact within key place agree inner further
  case defined =>
    intro own definition name place laid held agree
    exact shown?_definition_eq_topmost keyed laid held (first _ agree) (within name place agree)

end Layers

/-- How an expanded descriptor comes by what it shows. -/
structure Layers.Ranks (layers : Layers) (expanded : Fields) : Prop where
  kept : forall (path : List Text) (content : Option Json), ¬Layers.BelowDirective path ->
    shown? (.obj layers.own) path = some content -> shown? (.obj expanded) path = some content
  found : forall (path : List Text) (content : Option Json),
    shown? (.obj expanded) path = some content -> some content ∈ layers.views path
  ranked : forall path : List Text, layers.Agree path ->
    shown? (.obj expanded) path = topmost (layers.views path)

/-- A descriptor that expands keeps its own content, shows nothing that no layer shows, and
shows the content of the topmost layer wherever the layers do not clash. -/
theorem expand_ranks_layers {tree : SchemaTree} {owner : Text} {fields expanded : Fields}
    (keyed : Json.Keyed (.obj fields))
    (expands : (Session.expand tree owner fields []).1.outcome = .ok expanded) :
    ∃ layers : Layers, layers.own = fields ∧ layers.Included tree ∧ layers.Ranks expanded := by
  rw [(fetches_expand owner fields).follows.outcome [] Session.faithful_nil] at expands
  rcases exists_layers_of_expand keyed expands with ⟨layers, rfl, included, rfl⟩
  have all := included.keyed keyed
  exact ⟨layers, rfl, included, fun path _ => layers.shown?_expanded_of_own included all path,
    fun path _ => Layers.mem_views_of_shown?_expanded included all path,
    Layers.shown?_expanded_eq_topmost included all⟩

/-- A schema whose fragments are included in all three places of a descriptor. -/
def rankedTree : MemoryTree where
  files :=
    [(Path.parse "s/base.json",
       "\x7b\"caption\": 0, \"attributes\": \x7b\"user\": \x7b\"a\": 0, \"b\": 0, \"c\": 0\x7d\x7d\x7d"),
     (Path.parse "s/later.json",
       "\x7b\"attributes\": \x7b\"user\": \x7b\"b\": 1, \"c\": 1\x7d\x7d\x7d"),
     (Path.parse "s/among.json",
       "\x7b\"attributes\": \x7b\"user\": \x7b\"a\": 2, \"d\": 2\x7d, \"host\": \x7b\x7d\x7d\x7d"),
     (Path.parse "s/within.json", "\x7b\"c\": 3, \"d\": 3, \"e\": 3\x7d")]
  unreadable := []

/-- A descriptor with a directive in each place. -/
def rankedDescriptor : Fields :=
  [("$include", .arr [.str "base.json", .str "later.json"]),
   ("attributes", .obj
     [("$include", .str "among.json"),
      ("user", .obj [("$include", .str "within.json"), ("c", .int 4)])])]

/-- What it expands to.  At each key of `user` a number says the layer: 4 is the descriptor's
own, 0 and 1 are the fragments of the root, 2 is among the attributes and 3 within. -/
def rankedExpanded : Fields :=
  [("caption", .int 0),
   ("attributes", .obj
     [("user", .obj [("c", .int 4), ("d", .int 2), ("e", .int 3), ("a", .int 0), ("b", .int 1)]),
      ("host", .obj [])])]

theorem keyed_rankedDescriptor : Json.Keyed (.obj rankedDescriptor) := by
  have written : Json.read (Json.obj rankedDescriptor).write = .ok (.obj rankedDescriptor) := by
    decide +kernel
  exact (Json.wellFormed_of_read written).keyed

theorem expand_rankedDescriptor :
    (Session.expand (SchemaTree.below rankedTree.source (Path.parse "s") "extensions") "login"
      rankedDescriptor []).1.outcome = .ok rankedExpanded := by
  rw [← Outcome.toOption_eq_some_iff]
  decide +kernel

/-- Fragments of all three places hold the same keys, and each key has the value of the
topmost of them. -/
theorem expand_ranks_layers_of_three_places :
    let tree := SchemaTree.below rankedTree.source (Path.parse "s") "extensions"
    Json.Keyed (.obj rankedDescriptor) ∧
      (Session.expand tree "login" rankedDescriptor []).1.outcome = .ok rankedExpanded ∧
      ∃ layers : Layers, layers.own = rankedDescriptor ∧ layers.Included tree ∧
        layers.Ranks rankedExpanded :=
  ⟨keyed_rankedDescriptor, expand_rankedDescriptor,
    expand_ranks_layers keyed_rankedDescriptor expand_rankedDescriptor⟩

end Inclusion
end EventSchema
