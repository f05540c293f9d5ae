import ResultLayout.Proofs.Layout.Description
import ResultLayout.Proofs.Layout.Tree
/-!
# Presence of members in responses

A response may drop fields that a directive makes conditional and fragments on a type other than the
level's own, each by itself; the object under a response name is then selected by the occurrences of
the name that are kept. An occurrence that nothing makes conditional is always kept, and a member is
unconditional if it has such an occurrence.

This says something about the object at the member's record only if that occurrence is selected there.
Of several occurrences on the way to the record a response may keep one and drop another, which takes
along everything that only the other one selects. Where the occurrences of each name on the way are
kept or dropped together, every object has the unconditional members of its record.
-/
namespace ResultLayout

namespace FragmentRegistry

/-- The occurrences that a possible response on the schema type keeps of some entries. A field can be
dropped if it is conditional itself, a fragment if its type condition is another type. -/
inductive Keeps (registry : FragmentRegistry) (schemaTypeName : String) :
    List SelectionItem → List Occurrence → Prop
  | nil : Keeps registry schemaTypeName [] []
  | field {field : Field} {rest : List SelectionItem} {kept : List Occurrence}
    (hrest : Keeps registry schemaTypeName rest kept) :
    Keeps registry schemaTypeName (.field field :: rest) (⟨[], field⟩ :: kept)
  | dropField {field : Field} {rest : List SelectionItem} {kept : List Occurrence}
    (hconditional : field.head.isConditional = true)
    (hrest : Keeps registry schemaTypeName rest kept) :
    Keeps registry schemaTypeName (.field field :: rest) kept
  | spread {name : String} {fragment : Fragment} {rest : List SelectionItem}
    {body kept : List Occurrence} (hfind : registry.find? name = some fragment)
    (hbody : Keeps registry schemaTypeName fragment.selection.items body)
    (hrest : Keeps registry schemaTypeName rest kept) :
    Keeps registry schemaTypeName (.spread name :: rest)
      (body.map (·.within fragment.spreadScope) ++ kept)
  | skipSpread {name : String} {fragment : Fragment} {rest : List SelectionItem}
    {kept : List Occurrence} (hfind : registry.find? name = some fragment)
    (hnarrows : fragment.typeCondition ≠ schemaTypeName)
    (hrest : Keeps registry schemaTypeName rest kept) :
    Keeps registry schemaTypeName (.spread name :: rest) kept
  | inline {fragment : InlineFragment} {rest : List SelectionItem} {body kept : List Occurrence}
    (hbody : Keeps registry schemaTypeName fragment.body.items body)
    (hrest : Keeps registry schemaTypeName rest kept) :
    Keeps registry schemaTypeName (.inline fragment :: rest)
      (body.map (·.within fragment.scope) ++ kept)
  | skipInline {fragment : InlineFragment} {rest : List SelectionItem} {kept : List Occurrence}
    (hnarrows : fragment.typeCondition ≠ schemaTypeName)
    (hrest : Keeps registry schemaTypeName rest kept) :
    Keeps registry schemaTypeName (.inline fragment :: rest) kept

/-- What a possible response keeps at the object that some selection sets make at a path: below the
first name the object is selected by the kept occurrences of the name, of which there is one. -/
inductive ObjectAt (registry : FragmentRegistry) :
    String → List SelectionSet → List String → List Occurrence → Prop
  | here {schemaTypeName : String} {selections : List SelectionSet} {kept : List Occurrence}
    (hkeeps : registry.Keeps schemaTypeName (selections.flatMap (·.items)) kept) :
    ObjectAt registry schemaTypeName selections [] kept
  | deeper {schemaTypeName : String} {selections : List SelectionSet}
    {kept object : List Occurrence} {occurrence : Occurrence} {type : TypeRef} {path : List String}
    (hkeeps : registry.Keeps schemaTypeName (selections.flatMap (·.items)) kept)
    (hkept : occurrence ∈ kept) (htype : occurrence.type? = .ok type)
    (hobject : ObjectAt registry type.innermostName
      ((kept.filter (·.responseName = occurrence.responseName)).map (·.field.selection))
      path object) :
    ObjectAt registry schemaTypeName selections (occurrence.responseName :: path) object

variable {registry : FragmentRegistry} {schemaTypeName : String} {items : List SelectionItem}
  {kept : List Occurrence}

theorem Keeps.selected (hkeeps : registry.Keeps schemaTypeName items kept) {occurrence : Occurrence}
    (h : occurrence ∈ kept) : ∃ item ∈ items, registry.ItemSelects occurrence item := by
  induction hkeeps generalizing occurrence with
  | nil => cases h
  | field _ ih =>
    rcases List.mem_cons.mp h with rfl | hrest
    · exact ⟨_, List.mem_cons_self, rfl⟩
    · obtain ⟨item, hitem, hselects⟩ := ih hrest
      exact ⟨item, List.mem_cons_of_mem _ hitem, hselects⟩
  | dropField _ _ ih | skipSpread _ _ _ ih | skipInline _ _ ih =>
    obtain ⟨item, hitem, hselects⟩ := ih h
    exact ⟨item, List.mem_cons_of_mem _ hitem, hselects⟩
  | spread hfind _ _ ihBody ihRest =>
    rcases List.mem_append.mp h with hbody | hrest
    · obtain ⟨inner, hinner, rfl⟩ := List.mem_map.mp hbody
      exact ⟨_, List.mem_cons_self, _, inner, hfind, selects_iff_item.mpr (ihBody hinner), rfl⟩
    · obtain ⟨item, hitem, hselects⟩ := ihRest hrest
      exact ⟨item, List.mem_cons_of_mem _ hitem, hselects⟩
  | inline _ _ ihBody ihRest =>
    rcases List.mem_append.mp h with hbody | hrest
    · obtain ⟨inner, hinner, rfl⟩ := List.mem_map.mp hbody
      exact ⟨_, List.mem_cons_self, inner, selects_iff_item.mpr (ihBody hinner), rfl⟩
    · obtain ⟨item, hitem, hselects⟩ := ihRest hrest
      exact ⟨item, List.mem_cons_of_mem _ hitem, hselects⟩

end FragmentRegistry

private theorem Occurrence.conditional_within (scope : FragmentScope) (occurrence : Occurrence)
    (schemaTypeName : String) :
    (occurrence.within scope).conditional schemaTypeName =
      (scope.narrows schemaTypeName || occurrence.conditional schemaTypeName) := by
  rw [conditional, conditional, within, List.any_cons, Bool.or_assoc]

namespace FragmentRegistry

variable {registry : FragmentRegistry} {schemaTypeName : String} {items : List SelectionItem}
  {kept : List Occurrence}

private theorem Keeps.mem_of_unconditional (hkeeps : registry.Keeps schemaTypeName items kept)
    {occurrence : Occurrence} {item : SelectionItem} (hitem : item ∈ items)
    (hselects : registry.ItemSelects occurrence item)
    (h : occurrence.conditional schemaTypeName = false) : occurrence ∈ kept := by
  induction hkeeps generalizing occurrence item with
  | nil => cases hitem
  | field _ ih =>
    rcases List.mem_cons.mp hitem with rfl | hrest
    · rw [hselects]
      exact List.mem_cons_self
    · exact List.mem_cons_of_mem _ (ih hrest hselects h)
  | dropField hconditional _ ih =>
    rcases List.mem_cons.mp hitem with rfl | hrest
    · rw [hselects, Occurrence.conditional, hconditional, Bool.or_true] at h
      cases h
    · exact ih hrest hselects h
  | spread hfind _ _ ihBody ihRest =>
    rcases List.mem_cons.mp hitem with rfl | hrest
    · obtain ⟨fragment, inner, hfound, hinner, rfl⟩ := hselects
      obtain rfl := Option.some.inj (hfind.symm.trans hfound)
      rw [Occurrence.conditional_within, Bool.or_eq_false_iff] at h
      obtain ⟨item, hitem, hselects⟩ := selects_iff_item.mp hinner
      exact List.mem_append_left _ (List.mem_map_of_mem (ihBody hitem hselects h.2))
    · exact List.mem_append_right _ (ihRest hrest hselects h)
  | skipSpread hfind hnarrows _ ih =>
    rcases List.mem_cons.mp hitem with rfl | hrest
    · obtain ⟨fragment, inner, hfound, -, rfl⟩ := hselects
      obtain rfl := Option.some.inj (hfind.symm.trans hfound)
      rw [Occurrence.conditional_within, Bool.or_eq_false_iff, FragmentScope.narrows,
        bne_eq_false_iff_eq] at h
      exact absurd h.1 hnarrows
    · exact ih hrest hselects h
  | inline _ _ ihBody ihRest =>
    rcases List.mem_cons.mp hitem with rfl | hrest
    · obtain ⟨inner, hinner, rfl⟩ := hselects
      rw [Occurrence.conditional_within, Bool.or_eq_false_iff] at h
      obtain ⟨item, hitem, hselects⟩ := selects_iff_item.mp hinner
      exact List.mem_append_left _ (List.mem_map_of_mem (ihBody hitem hselects h.2))
    · exact List.mem_append_right _ (ihRest hrest hselects h)
  | skipInline hnarrows _ ih =>
    rcases List.mem_cons.mp hitem with rfl | hrest
    · obtain ⟨inner, -, rfl⟩ := hselects
      rw [Occurrence.conditional_within, Bool.or_eq_false_iff, FragmentScope.narrows,
        bne_eq_false_iff_eq] at h
      exact absurd h.1 hnarrows
    · exact ih hrest hselects h

section Level

variable {selections : List SelectionSet} {occurrence : Occurrence}

private theorem Keeps.level_selects
    (hkeeps : registry.Keeps schemaTypeName (selections.flatMap (·.items)) kept)
    (h : occurrence ∈ kept) : (Level.ofList schemaTypeName selections).Selects registry occurrence := by
  obtain ⟨item, hitem, hselects⟩ := hkeeps.selected h
  obtain ⟨selection, hselection, hitem⟩ := List.mem_flatMap.mp hitem
  exact ⟨selection, hselection, selects_iff_item.mpr ⟨item, hitem, hselects⟩⟩

private theorem Keeps.mem_of_level_selects
    (hkeeps : registry.Keeps schemaTypeName (selections.flatMap (·.items)) kept)
    (hselects : (Level.ofList schemaTypeName selections).Selects registry occurrence)
    (h : occurrence.conditional schemaTypeName = false) : occurrence ∈ kept := by
  obtain ⟨selection, hselection, hselects⟩ := hselects
  obtain ⟨item, hitem, hselects⟩ := selects_iff_item.mp hselects
  exact hkeeps.mem_of_unconditional (List.mem_flatMap.mpr ⟨selection, hselection, hitem⟩) hselects h

end Level

end FragmentRegistry

/-- A possible response that keeps one occurrence of the name on the level keeps all of them. -/
def Level.KeepsTogether (registry : FragmentRegistry) (level : Level) (responseName : String) :
    Prop :=
  ∀ selections kept, level = ofList level.schemaTypeName selections →
    registry.Keeps level.schemaTypeName (selections.flatMap (·.items)) kept →
    (∃ occurrence ∈ kept, occurrence.responseName = responseName) →
    ∀ occurrence, level.Selects registry occurrence → occurrence.responseName = responseName →
      occurrence ∈ kept

/-- On the way along the path the occurrences of each name are kept together. -/
def Level.KeepsPathTogether (registry : FragmentRegistry) : Level → List String → Prop
  | _, [] => True
  | level, name :: path => level.KeepsTogether registry name ∧
    ∀ occurrence type, level.Selects registry occurrence → occurrence.responseName = name →
      occurrence.type? = .ok type → (level.below registry name type).KeepsPathTogether registry path

namespace Level

variable {registry : FragmentRegistry} {level : Level} {responseName : String}

theorem keepsTogether_of_unconditional (h : ∀ occurrence, level.Selects registry occurrence →
      occurrence.responseName = responseName →
      occurrence.conditional level.schemaTypeName = false) :
    level.KeepsTogether registry responseName := by
  intro selections kept hlevel hkeeps _ occurrence hselects hname
  have hunconditional := h occurrence hselects hname
  rw [hlevel] at hselects
  exact hkeeps.mem_of_level_selects hselects hunconditional

private theorem keepsTogether_of_unique
    (h : ∀ a b, level.Selects registry a → level.Selects registry b →
      a.responseName = responseName → b.responseName = responseName → a = b) :
    level.KeepsTogether registry responseName := by
  rintro selections kept hlevel hkeeps ⟨other, hother, hown⟩ occurrence hselects hname
  have hotherSelects := hkeeps.level_selects hother
  rw [← hlevel] at hotherSelects
  rw [h occurrence other hselects hotherSelects hname hown]
  exact hother

private theorem below_eq_of_keepsTogether {selections : List SelectionSet} {kept : List Occurrence}
    {schemaTypeName : String}
    (h : (ofList schemaTypeName selections).KeepsTogether registry responseName)
    (hkeeps : registry.Keeps schemaTypeName (selections.flatMap (·.items)) kept)
    (hsome : ∃ occurrence ∈ kept, occurrence.responseName = responseName) (type : TypeRef) :
    (ofList schemaTypeName selections).below registry responseName type =
      ofList type.innermostName
        ((kept.filter (·.responseName = responseName)).map (·.field.selection)) := by
  rw [below, ofList, ofList, Level.mk.injEq]
  refine ⟨rfl, ?_⟩
  ext selection
  simp only [Set.mem_ofPred_eq, List.mem_map, List.mem_filter, decide_eq_true_eq]
  constructor
  · rintro ⟨occurrence, hselects, hname, rfl⟩
    exact ⟨occurrence, ⟨h selections kept rfl hkeeps hsome occurrence hselects hname, hname⟩, rfl⟩
  · rintro ⟨occurrence, ⟨hmem, hname⟩, rfl⟩
    exact ⟨occurrence, hkeeps.level_selects hmem, hname, rfl⟩

end Level

/-- In the tree of a record that describes a level, unconditional members are present in the objects at
their records. -/
theorem RecordType.Holds.present {registry : FragmentRegistry} {resolve : String → LeafKind}
    {record deeper : RecordType} {path : List String} (hholds : record.Holds path deeper)
    {schemaTypeName : String} {selections : List SelectionSet}
    (hdescribes : record.Describes registry resolve (Level.ofList schemaTypeName selections))
    (htogether : (Level.ofList schemaTypeName selections).KeepsPathTogether registry path)
    {object : List Occurrence} (hobject : registry.ObjectAt schemaTypeName selections path object)
    {member : Member} (hmember : member ∈ deeper.members) (h : member.conditional = false) :
    ∃ occurrence ∈ object, occurrence.responseName = member.responseName := by
  induction hholds generalizing schemaTypeName selections with
  | here record =>
    obtain ⟨-, -, -, -, hmembers, -⟩ := hdescribes
    cases hobject with
    | here hkeeps =>
      have hsome := mt (hmembers member hmember).conditional_iff.mpr (Bool.eq_false_iff.mp h)
      push Not at hsome
      obtain ⟨occurrence, hselects, hname, hunconditional⟩ := hsome
      have hmem := hkeeps.mem_of_level_selects hselects (Bool.eq_false_iff.mpr hunconditional)
      exact ⟨occurrence, hmem, hname⟩
  | @inMember record nested deeper parent path hparent hnested _ ih =>
    obtain ⟨-, -, -, -, hmembers, hbelow⟩ := hdescribes
    generalize hfirst : parent.responseName = first at hobject
    cases hobject with
    | deeper hkeeps hkept htype hobject =>
      have hselects := hkeeps.level_selects hkept
      rw [hfirst] at htogether
      have hparentType := (hmembers parent hparent).type?_eq _ hselects hfirst.symm
      rw [htype] at hparentType
      obtain rfl := Except.ok.inj hparentType
      have hlevel := Level.below_eq_of_keepsTogether htogether.1 hkeeps ⟨_, hkept, rfl⟩ parent.type
      have hnestedDescribes := hbelow parent hparent nested hnested
      have hnestedTogether := htogether.2 _ _ hselects rfl htype
      rw [hfirst, hlevel] at hnestedDescribes
      rw [hlevel] at hnestedTogether
      exact ih hnestedDescribes hnestedTogether hobject hmember

/-- Where the occurrences of each name on the way to a record are kept together, an unconditional member
of the record is present in every object that a possible response has there. -/
theorem unconditional_member_present {collection : FragmentCollection} {registry : FragmentRegistry}
    (hbuild : collection.build = .ok registry) {resolve : String → LeafKind}
    {name schemaTypeName : String} {selection : SelectionSet} {names : NameAllocator}
    {record deeper : RecordType}
    (hrecord : (layoutRoot registry resolve name schemaTypeName selection names).1 = .ok record)
    {path : List String} (hholds : record.Holds path deeper)
    (htogether : (Level.root schemaTypeName selection).KeepsPathTogether registry path)
    {member : Member} (hmember : member ∈ deeper.members) (h : member.conditional = false)
    {object : List Occurrence} (hobject : registry.ObjectAt schemaTypeName [selection] path object) :
    ∃ occurrence ∈ object, occurrence.responseName = member.responseName := by
  rw [FragmentRegistry.layoutRoot_eq_layoutRecord] at hrecord
  rw [Level.root_eq_ofList] at htogether
  have hdescribes := (FragmentRegistry.safe_of_build hbuild).describes_of_layout_ok hrecord
  exact hholds.present hdescribes htogether hobject hmember h

section Hero

def leafField (responseName : String) : Field :=
  ⟨{ responseName := responseName, fieldName := responseName, typeText := "String" }, .empty⟩

def characterField (responseName : String) (selection : SelectionSet) : Field :=
  ⟨{ responseName := responseName, fieldName := responseName, typeText := "Character" }, selection⟩

def friendIdField : Field := characterField "friend" ⟨[leafField "id"], [], []⟩

def friendNameOnDroid : InlineFragment where
  typeCondition := "Droid"
  possibleTypes := ["Droid"]
  fields := [characterField "friend" ⟨[leafField "name"], [], []⟩]
  spreads := []

def heroFriend : SelectionSet := ⟨[friendIdField], [], [friendNameOnDroid]⟩

/-- A hero with the identifier of a friend and, if the hero is a droid, with the name of that friend. -/
def heroSelection : SelectionSet := ⟨[characterField "hero" heroFriend], [], []⟩

private theorem exists_member_of_layout {outcome : Except CompileError RecordType}
    {path : List String} {name : String}
    (h : ((outcome.toOption.bind (·.nestedAt? path)).bind (·.member? name)).map (·.conditional) =
      some false) :
    ∃ record deeper member, outcome = .ok record ∧ record.Holds path deeper ∧
      member ∈ deeper.members ∧ member.responseName = name ∧ member.conditional = false := by
  cases outcome with
  | error error => cases h
  | ok record =>
    obtain ⟨member, hmember, hconditional⟩ := Option.map_eq_some_iff.mp h
    obtain ⟨deeper, hdeeper, hmember⟩ := Option.bind_eq_some_iff.mp hmember
    obtain ⟨hmember, hname⟩ := RecordType.mem_of_member? hmember
    exact ⟨record, deeper, member, rfl, RecordType.holds_of_nestedAt? hdeeper, hmember, hname,
      hconditional⟩

private theorem keeps_hero : FragmentRegistry.Keeps ⟨[]⟩ "Query"
    ([heroSelection].flatMap (·.items)) [⟨[], characterField "hero" heroFriend⟩] :=
  .field .nil

private theorem keeps_friend : FragmentRegistry.Keeps ⟨[]⟩ "Character"
    ([heroFriend].flatMap (·.items)) [⟨[], friendIdField⟩] :=
  .field (.skipInline (show "Droid" ≠ "Character" by decide) .nil)

private theorem parse_character : TypeRef.parse "Character" = .ok (.named "Character" true) := by
  decide +kernel

private theorem type?_character (responseName : String) (selection : SelectionSet) :
    Occurrence.type? ⟨[], characterField responseName selection⟩ =
      .ok (.named "Character" true) :=
  parse_character

private theorem keepsTogether_hero :
    (Level.root "Query" heroSelection).KeepsPathTogether ⟨[]⟩ ["hero"] := by
  refine ⟨Level.keepsTogether_of_unique ?_, fun _ _ _ _ _ => trivial⟩
  have honly : ∀ occurrence, (Level.root "Query" heroSelection).Selects ⟨[]⟩ occurrence →
      occurrence = ⟨[], characterField "hero" heroFriend⟩ := by
    rintro occurrence ⟨selection, rfl, hselects⟩
    cases hselects with
    | own hfield => rw [List.mem_singleton.mp hfield]
    | spread hname => cases hname
    | inline hfragment => cases hfragment
  intro a b ha hb _ _
  rw [honly a ha, honly b hb]

theorem hero_friend_present : ∃ record hero friend,
    FragmentCollection.empty.build = .ok ⟨[]⟩ ∧
    (layoutRoot ⟨[]⟩ (fun _ => .enum) "Data" "Query" heroSelection .initial).1 = .ok record ∧
    record.Holds ["hero"] hero ∧ friend ∈ hero.members ∧ friend.conditional = false ∧
    (Level.root "Query" heroSelection).KeepsPathTogether ⟨[]⟩ ["hero"] ∧
    FragmentRegistry.ObjectAt ⟨[]⟩ "Query" [heroSelection] ["hero"] [⟨[], friendIdField⟩] ∧
    ∃ occurrence ∈ ([⟨[], friendIdField⟩] : List Occurrence),
      occurrence.responseName = friend.responseName := by
  have hbuild : FragmentCollection.empty.build = .ok ⟨[]⟩ := rfl
  obtain ⟨record, hero, friend, hrecord, hholds, hfriend, -, hconditional⟩ :
      ∃ record hero friend,
        (layoutRoot ⟨[]⟩ (fun _ => .enum) "Data" "Query" heroSelection .initial).1 = .ok record ∧
        record.Holds ["hero"] hero ∧ friend ∈ hero.members ∧ friend.responseName = "friend" ∧
        friend.conditional = false :=
    exists_member_of_layout (by decide +kernel)
  have hobject : FragmentRegistry.ObjectAt ⟨[]⟩ "Query" [heroSelection] ["hero"]
      [⟨[], friendIdField⟩] :=
    .deeper keeps_hero List.mem_cons_self (type?_character _ _) (.here keeps_friend)
  exact ⟨record, hero, friend, hbuild, hrecord, hholds, hfriend, hconditional, keepsTogether_hero,
    hobject, unconditional_member_present hbuild hrecord hholds keepsTogether_hero hfriend
      hconditional hobject⟩

/-- The friend of a hero who is no droid has no name, although nothing makes it conditional. -/
theorem hero_friend_name_absent : ∃ record friend name object,
    (layoutRoot ⟨[]⟩ (fun _ => .enum) "Data" "Query" heroSelection .initial).1 = .ok record ∧
    record.Holds ["hero", "friend"] friend ∧ name ∈ friend.members ∧ name.conditional = false ∧
    FragmentRegistry.ObjectAt ⟨[]⟩ "Query" [heroSelection] ["hero", "friend"] object ∧
    ∀ occurrence ∈ object, occurrence.responseName ≠ name.responseName := by
  obtain ⟨record, friend, name, hrecord, hholds, hmember, hname, hconditional⟩ :
      ∃ record friend name,
        (layoutRoot ⟨[]⟩ (fun _ => .enum) "Data" "Query" heroSelection .initial).1 = .ok record ∧
        record.Holds ["hero", "friend"] friend ∧ name ∈ friend.members ∧
        name.responseName = "name" ∧ name.conditional = false :=
    exists_member_of_layout (by decide +kernel)
  have hobject : FragmentRegistry.ObjectAt ⟨[]⟩ "Query" [heroSelection] ["hero", "friend"]
      [⟨[], leafField "id"⟩] :=
    .deeper keeps_hero List.mem_cons_self (type?_character _ _)
      (.deeper keeps_friend List.mem_cons_self (type?_character _ _) (.here (.field .nil)))
  refine ⟨record, friend, name, _, hrecord, hholds, hmember, hconditional, hobject, ?_⟩
  intro occurrence hoccurrence
  rw [List.mem_singleton.mp hoccurrence, hname]
  decide

end Hero

end ResultLayout
