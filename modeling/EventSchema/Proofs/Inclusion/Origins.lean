import EventSchema.Proofs.Inclusion.Precedence

namespace EventSchema

/-!
# Where the content of descriptors comes from

A descriptor is made of files that are laid over one another and over the
fragments they include.  Nothing is invented on the way: what an expanded
descriptor shows at a place, some file shows at the same place, or at the place
within the attribute where that attribute includes the file.
-/

namespace SchemaTree

variable {tree : SchemaTree}

/-- Some file shows a content at a place. -/
def Shows (tree : SchemaTree) (path : List Text) (content : Option Json) : Prop :=
  ∃ file fields, (tree.readObject file).outcome = .ok fields ∧
    Json.shown? (.obj fields) path = some content

/-- All that an object shows is shown by files. -/
def FromFiles (tree : SchemaTree) (fields : Fields) : Prop :=
  forall (path : List Text) (content : Option Json),
    Json.shown? (.obj fields) path = some content -> tree.Shows path content

/-- What a file shows beside objects is well formed. -/
theorem Shows.wellFormed {path : List Text} {leaf : Json} (shows : tree.Shows path (some leaf)) :
    leaf.WellFormed := by
  rcases shows with ⟨file, fields, reads, shows⟩
  exact (Json.wellFormed_iff.mp (wellFormed_of_readObject reads)).2 path leaf shows

theorem fromFiles_of_readObject {file : Path} {fields : Fields}
    (reads : (tree.readObject file).outcome = .ok fields) : tree.FromFiles fields :=
  fun _ _ shows => ⟨file, fields, reads, shows⟩

theorem FromFiles.merge {base upper : Fields} (lower : tree.FromFiles base)
    (higher : tree.FromFiles upper) (wellFormed : Json.WellFormed (.obj upper)) :
    tree.FromFiles (Fields.merge base upper) := by
  intro path content shows
  rcases Fields.shown?_of_shown?_merge wellFormed.keyed shows with below | above
  · exact lower path content below
  · exact higher path content above

/-- One more file is laid over what is declared. -/
theorem fromFiles_of_readDescriptor {declared next : Declarations} {file : Path}
    (origins : ∀ entry ∈ declared, tree.FromFiles entry.2)
    (reads : (tree.readDescriptor declared file).outcome = .ok next) :
    ∀ entry ∈ next, tree.FromFiles entry.2 := by
  unfold readDescriptor at reads
  rw [Report.outcome_bind] at reads
  rcases Outcome.bind_eq_ok_iff.mp reads with ⟨fields, read, step⟩
  have own := fromFiles_of_readObject read
  split at step
  · cases step
  · next type _ =>
      cases step
      intro entry member
      rcases OrderedMap.mem_of_mem_insert member with rfl | old
      · dsimp only
        split
        · exact own
        · next known found =>
            have lower := origins _ (OrderedMap.mem_of_get?_eq_some found)
            exact lower.merge own (wellFormed_of_readObject read)
      · exact origins entry old

/-- All raw descriptors come from files. -/
theorem fromFiles_of_declarations {folder : Text} {declared : Declarations}
    (reads : (tree.declarations folder).outcome = .ok declared) :
    ∀ entry ∈ declared, tree.FromFiles entry.2 :=
  declarations_invariant (motive := fun declared => ∀ entry ∈ declared, tree.FromFiles entry.2)
    (by simp) (fun _ _ _ origins reads => fromFiles_of_readDescriptor origins reads) reads

end SchemaTree

namespace Inclusion

open Json

variable {tree : SchemaTree} {owner type : Text} {fields : Fields} {path place : List Text}
  {content : Option Json}

/-- Fragments are files. -/
theorem fromFiles_of_expands {named : Option Json} {fragments? : Option (List Fields)}
    (expands : Expands tree named fragments?) :
    ∀ fragment ∈ fragments?.getD [], tree.FromFiles fragment := by
  cases named with
  | none =>
      cases expands
      simp
  | some value =>
      rcases expands with ⟨fragments, rfl, names⟩
      intro fragment member
      rcases exists_holds_of_names names fragment member with ⟨file, holds⟩
      exact SchemaTree.fromFiles_of_readObject (SchemaTree.readObject_eq_ok_iff.mpr holds)

/-- What is seen of fragments and what lies over them is shown by a file, or it is seen
above. -/
theorem shows_of_mem_under {fragments? : Option (List Fields)} {upper : List View}
    (origins : ∀ fragment ∈ fragments?.getD [], tree.FromFiles fragment)
    (member : some content ∈
      under fragments? (fun fragment => shown? (.obj fragment) path) place upper) :
    tree.Shows path content ∨ some content ∈ upper := by
  rcases List.mem_append.mp member with below | above
  · rcases List.mem_map.mp below with ⟨fragment, within, shows⟩
    exact Or.inl (origins fragment within path content shows)
  · split at above
    · cases above
    · exact Or.inr above

namespace Layers

variable {layers : Layers}

theorem shows_of_mem_viewsOfRoot (included : layers.Included tree)
    (member : some content ∈ layers.viewsOfRoot path) :
    shown? (.obj layers.own) path = some content ∨ tree.Shows path content := by
  rcases shows_of_mem_under (fromFiles_of_expands included.root) member with file | own
  · exact Or.inr file
  · exact Or.inl (List.mem_singleton.mp own).symm

theorem shows_of_mem_viewsAmong (included : layers.Included tree)
    (member : some content ∈ layers.viewsAmong place) :
    shown? (.obj layers.own) ("attributes" :: place) = some content ∨
      tree.Shows ("attributes" :: place) content := by
  rcases shows_of_mem_under (fromFiles_of_expands included.among) member with file | upper
  · exact Or.inr file
  · exact shows_of_mem_viewsOfRoot included upper

/-- What is seen of the layers at a place is the descriptor's own, or a file shows it at the
same place, or at the place within the attribute that includes the file. -/
theorem shows_of_mem_views (included : layers.Included tree)
    (member : some content ∈ layers.views path) :
    (shown? (.obj layers.own) path = some content ∨ tree.Shows path content) ∨
      ∃ name place, path = inAttribute name place ∧ tree.Shows place content := by
  rcases path with _ | ⟨key, rest⟩
  · exact Or.inl (shows_of_mem_viewsOfRoot included member)
  by_cases same : key = "attributes"
  · subst key
    rcases rest with _ | ⟨name, place⟩
    · rw [views_attributes] at member
      exact Or.inl (shows_of_mem_viewsAmong included member)
    · rw [views_attribute] at member
      rcases shows_of_mem_under (fromFiles_of_expands (included.within name)) member with file | upper
      · exact Or.inr ⟨name, place, rfl, file⟩
      · exact Or.inl (shows_of_mem_viewsAmong included upper)
  · rw [views_of_ne same] at member
    exact Or.inl (shows_of_mem_viewsOfRoot included member)

end Layers

/-- What an expanded descriptor shows is the descriptor's own or comes from a file. -/
theorem shown?_or_shows_of_expand {expanded : Fields} (keyed : Json.Keyed (.obj fields))
    (expands : (expand (readFragment tree) owner fields).outcome = .ok expanded)
    (shows : shown? (.obj expanded) path = some content) :
    (shown? (.obj fields) path = some content ∨ tree.Shows path content) ∨
      ∃ name place, path = inAttribute name place ∧ tree.Shows place content := by
  rcases exists_layers_of_expand keyed expands with ⟨layers, rfl, included, rfl⟩
  have all := included.keyed keyed
  exact Layers.shows_of_mem_views included
    (Layers.mem_views_of_shown?_expanded included all path shows)

/-! ## What expansion keeps -/

/-- An expanded object: it is well formed and says the same type. -/
structure Keeps (type : Text) (fields : Fields) : Prop where
  wellFormed : Json.WellFormed (.obj fields)
  typed : fields.get? "type" = some (.str type)

/-- What an expanded descriptor shows, some file shows at the same place, or at the
place within the attribute that includes it. -/
theorem shows_of_expand {expanded : Fields} (keeps : Keeps type fields)
    (origins : tree.FromFiles fields)
    (expands : (expand (readFragment tree) owner fields).outcome = .ok expanded)
    (shows : shown? (.obj expanded) path = some content) :
    tree.Shows path content ∨
      ∃ name place, path = inAttribute name place ∧ tree.Shows place content := by
  rcases shown?_or_shows_of_expand keeps.wellFormed.keyed expands shows with (own | file) | inner
  · exact Or.inl (origins path content own)
  · exact Or.inl file
  · exact Or.inr inner

/-- Expanding a well-formed descriptor keeps it so, since all its content comes from
well-formed objects, and it keeps its type. -/
theorem Keeps.of_expand {expanded : Fields} (keeps : Keeps type fields)
    (expands : (expand (readFragment tree) owner fields).outcome = .ok expanded) :
    Keeps type expanded := by
  have keyed := keeps.wellFormed.keyed
  rcases exists_layers_of_expand keyed expands with ⟨layers, rfl, included, rfl⟩
  have all := included.keyed keyed
  constructor
  · refine wellFormed_iff.mpr ⟨all.expanded, fun path leaf shows => ?_⟩
    rcases shown?_or_shows_of_expand keyed expands shows with (own | file) | ⟨_, _, _, file⟩
    · exact (wellFormed_iff.mp keeps.wellFormed).2 path leaf own
    · exact file.wellFormed
    · exact file.wellFormed
  · have outside : ¬Layers.BelowDirective ["type"] := by
      rintro ⟨rest, root | among | ⟨name, within⟩⟩
      · exact absurd (List.cons.inj root).1 (by decide)
      · exact absurd (List.cons.inj among).1 (by decide)
      · exact absurd (List.cons.inj within).1 (by decide)
    have own : shown? (.obj layers.own) ["type"] = some (some (.str type)) :=
      shown?_of_get? keeps.typed []
    have kept := (shown?_eq_some_some_iff.mp
      (Layers.shown?_expanded_of_own included all ["type"] outside own)).2
    rw [at?_obj_cons] at kept
    rcases Option.bind_eq_some_iff.mp kept with ⟨value, held, same⟩
    rw [at?_nil] at same
    exact held.trans same

end Inclusion
end EventSchema
