import ResultLayout.Proofs.Layout.Description
/-!
# Reordered selections

Two selection sets may list the same fields, spreads and inline fragments in different orders, at
every level of nesting. Their levels then correspond: what the one selects or spreads the other does
too, from the same fragments. So one of them can be laid out if the other can, and as records only say
what their levels have in common, the two trees differ in the order of members, in names of records
and in what a member takes from its first occurrence.
-/
namespace ResultLayout

/-- The entries of two selection sets belong together in pairs, whatever their order; so do those of
the selections below paired fields and in paired inline fragments. -/
inductive SelectionSet.Reordered : SelectionSet → SelectionSet → Prop
  | mk {left right : SelectionSet} (fields : List (Field × Field))
    (inlineFragments : List (InlineFragment × InlineFragment))
    (leftFields : left.fields.Perm (fields.map (·.1)))
    (rightFields : right.fields.Perm (fields.map (·.2)))
    (heads : ∀ pair ∈ fields, pair.1.head = pair.2.head)
    (selections : ∀ pair ∈ fields, Reordered pair.1.selection pair.2.selection)
    (spreads : left.spreads.Perm right.spreads)
    (leftInline : left.inlineFragments.Perm (inlineFragments.map (·.1)))
    (rightInline : right.inlineFragments.Perm (inlineFragments.map (·.2)))
    (scopes : ∀ pair ∈ inlineFragments, pair.1.scope = pair.2.scope)
    (bodies : ∀ pair ∈ inlineFragments, Reordered pair.1.body pair.2.body) : Reordered left right

namespace SelectionSet.Reordered

variable {left right : SelectionSet}

theorem refl (selection : SelectionSet) : selection.Reordered selection := by
  induction selection using SelectionSet.induction with
  | step selection ihFields ihInline =>
    refine .mk (selection.fields.map fun field => (field, field))
      (selection.inlineFragments.map fun fragment => (fragment, fragment))
      ?_ ?_ ?_ ?_ (.refl _) ?_ ?_ ?_ ?_
    · simp [Function.comp_def]
    · simp [Function.comp_def]
    · simp
    · simpa using ihFields
    · simp [Function.comp_def]
    · simp [Function.comp_def]
    · simp
    · simpa using ihInline

theorem symm (h : left.Reordered right) : right.Reordered left := by
  induction h with
  | mk fields inlineFragments leftFields rightFields heads _ spreads leftInline rightInline scopes _
      ihSelections ihBodies =>
    refine .mk (fields.map Prod.swap) (inlineFragments.map Prod.swap) ?_ ?_ ?_ ?_ spreads.symm
      ?_ ?_ ?_ ?_
    · rw [List.map_map]
      exact rightFields
    · rw [List.map_map]
      exact leftFields
    · rw [List.forall_mem_map]
      exact fun pair hpair => (heads pair hpair).symm
    · rw [List.forall_mem_map]
      exact ihSelections
    · rw [List.map_map]
      exact rightInline
    · rw [List.map_map]
      exact leftInline
    · rw [List.forall_mem_map]
      exact fun pair hpair => (scopes pair hpair).symm
    · rw [List.forall_mem_map]
      exact ihBodies

private theorem mem_spreads (h : left.Reordered right) {name : String} :
    name ∈ left.spreads ↔ name ∈ right.spreads := by
  obtain ⟨_, _, -, -, -, -, spreads, -, -, -, -⟩ := h
  exact spreads.mem_iff

private theorem exists_field (h : left.Reordered right) {field : Field}
    (hfield : field ∈ left.fields) :
    ∃ other ∈ right.fields, field.head = other.head ∧
      field.selection.Reordered other.selection := by
  obtain ⟨fields, _, leftFields, rightFields, heads, selections, -, -, -, -, -⟩ := h
  obtain ⟨pair, hpair, rfl⟩ := List.mem_map.mp (leftFields.mem_iff.mp hfield)
  exact ⟨pair.2, rightFields.mem_iff.mpr (List.mem_map_of_mem hpair), heads pair hpair,
    selections pair hpair⟩

private theorem exists_inline (h : left.Reordered right) {fragment : InlineFragment}
    (hfragment : fragment ∈ left.inlineFragments) :
    ∃ other ∈ right.inlineFragments, fragment.scope = other.scope ∧
      fragment.body.Reordered other.body := by
  obtain ⟨_, inlineFragments, -, -, -, -, -, leftInline, rightInline, scopes, bodies⟩ := h
  obtain ⟨pair, hpair, rfl⟩ := List.mem_map.mp (leftInline.mem_iff.mp hfragment)
  exact ⟨pair.2, rightInline.mem_iff.mpr (List.mem_map_of_mem hpair), scopes pair hpair,
    bodies pair hpair⟩

private theorem length_items (h : left.Reordered right) :
    left.items.length = right.items.length := by
  obtain ⟨_, _, leftFields, rightFields, -, -, spreads, leftInline, rightInline, -, -⟩ := h
  simp [SelectionSet.items, leftFields.length_eq, rightFields.length_eq, spreads.length_eq,
    leftInline.length_eq, rightInline.length_eq]

private theorem items_eq_nil (h : left.Reordered right) : left.items = [] ↔ right.items = [] := by
  rw [← List.length_eq_zero_iff, ← List.length_eq_zero_iff, h.length_items]

private theorem mem_spreadsHere (h : left.Reordered right) {name : String}
    (hname : name ∈ left.spreadsHere) : name ∈ right.spreadsHere := by
  rw [SelectionSet.spreadsHere, List.mem_append] at hname ⊢
  rcases hname with hown | hinline
  · exact Or.inl (h.mem_spreads.mp hown)
  · obtain ⟨fragment, hfragment, hname⟩ := List.mem_flatMap.mp hinline
    obtain ⟨other, hother, -, hbody⟩ := h.exists_inline hfragment
    exact Or.inr (List.mem_flatMap.mpr ⟨other, hother, hbody.mem_spreads.mp hname⟩)

end SelectionSet.Reordered

/-- The same field from the same fragments, with the selection below it reordered. -/
structure Occurrence.Reordered (left right : Occurrence) : Prop where
  enclosing_eq : left.enclosing = right.enclosing
  head_eq : left.field.head = right.field.head
  selection : left.field.selection.Reordered right.field.selection

namespace Occurrence.Reordered

variable {left right : Occurrence}

theorem within (h : left.Reordered right) (scope : FragmentScope) :
    (left.within scope).Reordered (right.within scope) :=
  ⟨congrArg (scope :: ·) h.enclosing_eq, h.head_eq, h.selection⟩

theorem responseName_eq (h : left.Reordered right) : left.responseName = right.responseName :=
  congrArg FieldHead.responseName h.head_eq

theorem type?_eq (h : left.Reordered right) : left.type? = right.type? := by
  rw [type?, type?, h.head_eq]

private theorem conditional_eq (h : left.Reordered right) (schemaTypeName : String) :
    left.conditional schemaTypeName = right.conditional schemaTypeName := by
  rw [conditional, conditional, h.enclosing_eq, h.head_eq]

theorem agrees_iff {a b c d : Occurrence} (hfirst : a.Reordered b) (hsecond : c.Reordered d)
    (schemaTypeName : String) : a.Agrees schemaTypeName c ↔ b.Agrees schemaTypeName d := by
  simp only [Agrees, type?, fieldName, narrowedTo, hfirst.enclosing_eq, hfirst.head_eq,
    hsecond.enclosing_eq, hsecond.head_eq]

end Occurrence.Reordered

section Selects

variable {registry : FragmentRegistry} {left right : SelectionSet}

private theorem FragmentRegistry.Selects.exists_reordered {occurrence : Occurrence}
    (hselects : registry.Selects left occurrence) (h : left.Reordered right) :
    ∃ other, registry.Selects right other ∧ occurrence.Reordered other := by
  induction hselects generalizing right with
  | own hfield =>
    obtain ⟨other, hother, hhead, hselection⟩ := h.exists_field hfield
    exact ⟨_, .own hother, rfl, hhead, hselection⟩
  | spread hname hfind hinner _ =>
    exact ⟨_, .spread (h.mem_spreads.mp hname) hfind hinner, rfl, rfl, .refl _⟩
  | inline hfragment _ ih =>
    obtain ⟨other, hother, hscope, hbody⟩ := h.exists_inline hfragment
    obtain ⟨inner, hinner, hreordered⟩ := ih hbody
    rw [hscope]
    exact ⟨_, .inline hother hinner, hreordered.within _⟩

private theorem FragmentRegistry.SpreadsAtLevel.of_reordered {name : String}
    (hspreads : registry.SpreadsAtLevel left name) (h : left.Reordered right) :
    registry.SpreadsAtLevel right name := by
  induction hspreads generalizing right with
  | own hname => exact .own (h.mem_spreads.mp hname)
  | spread houter hfind hinner _ => exact .spread (h.mem_spreads.mp houter) hfind hinner
  | inline hfragment _ ih =>
    obtain ⟨other, hother, -, hbody⟩ := h.exists_inline hfragment
    exact .inline hother (ih hbody)

end Selects

/-- The selection sets of two levels are each other's reorderings. -/
structure Level.Reordered (left right : Level) : Prop where
  schemaTypeName_eq : left.schemaTypeName = right.schemaTypeName
  exists_right : ∀ selection ∈ left.selections, ∃ other ∈ right.selections,
    selection.Reordered other
  exists_left : ∀ selection ∈ right.selections, ∃ other ∈ left.selections,
    selection.Reordered other

namespace Level.Reordered

variable {registry : FragmentRegistry} {left right : Level}

theorem symm (h : left.Reordered right) : right.Reordered left :=
  ⟨h.schemaTypeName_eq.symm, h.exists_left, h.exists_right⟩

theorem root (schemaTypeName : String) {first second : SelectionSet}
    (h : first.Reordered second) :
    (ofList schemaTypeName [first]).Reordered (ofList schemaTypeName [second]) := by
  refine ⟨rfl, ?_, ?_⟩
  · intro selection hselection
    obtain rfl := List.mem_singleton.mp hselection
    exact ⟨second, List.mem_singleton_self second, h⟩
  · intro selection hselection
    obtain rfl := List.mem_singleton.mp hselection
    exact ⟨first, List.mem_singleton_self first, h.symm⟩

private theorem exists_selects (h : left.Reordered right) {occurrence : Occurrence}
    (hselects : left.Selects registry occurrence) :
    ∃ other, right.Selects registry other ∧ occurrence.Reordered other := by
  obtain ⟨selection, hselection, hselects⟩ := hselects
  obtain ⟨other, hother, hreordered⟩ := h.exists_right selection hselection
  obtain ⟨found, hfound, hsame⟩ := hselects.exists_reordered hreordered
  exact ⟨found, ⟨other, hother, hfound⟩, hsame⟩

theorem below (h : left.Reordered right) (responseName : String) (type : TypeRef) :
    (left.below registry responseName type).Reordered (right.below registry responseName type) := by
  have hhalf {a b : Level} (hab : a.Reordered b) :
      ∀ selection ∈ (a.below registry responseName type).selections,
        ∃ other ∈ (b.below registry responseName type).selections, selection.Reordered other := by
    rintro _ ⟨occurrence, hselects, hname, rfl⟩
    obtain ⟨other, hother, hsame⟩ := hab.exists_selects hselects
    exact ⟨_, ⟨other, hother, hsame.responseName_eq.symm.trans hname, rfl⟩, hsame.selection⟩
  exact ⟨rfl, hhalf h, hhalf h.symm⟩

private theorem exists_reaches {deeper : Level} (hreaches : left.Reaches registry deeper)
    (h : left.Reordered right) :
    ∃ other, right.Reaches registry other ∧ deeper.Reordered other := by
  induction hreaches generalizing right with
  | here level => exact ⟨right, .here right, h⟩
  | step hselects htype _ ih =>
    obtain ⟨other, hother, hsame⟩ := h.exists_selects hselects
    obtain ⟨found, hreaches, hfound⟩ := ih (h.below _ _)
    rw [hsame.responseName_eq] at hreaches
    exact ⟨found, .step hother (hsame.type?_eq.symm.trans htype) hreaches, hfound⟩

private theorem sound (h : left.Reordered right) (hsound : left.Sound registry) :
    right.Sound registry := by
  refine ⟨?_, ?_, ?_⟩
  · rintro name ⟨selection, hselection, hspreads⟩
    obtain ⟨other, hother, hreordered⟩ := h.exists_left selection hselection
    exact hsound.defined name ⟨other, hother, hspreads.of_reordered hreordered⟩
  · intro occurrence hselects
    obtain ⟨other, hother, hsame⟩ := h.symm.exists_selects hselects
    obtain ⟨type, htype⟩ := hsound.readable other hother
    exact ⟨type, hsame.type?_eq.trans htype⟩
  · intro a b ha hb hname
    obtain ⟨c, hc, hac⟩ := h.symm.exists_selects ha
    obtain ⟨d, hd, hbd⟩ := h.symm.exists_selects hb
    have hsame : c.responseName = d.responseName := by
      rw [← hac.responseName_eq, ← hbd.responseName_eq, hname]
    rw [hac.agrees_iff hbd, ← h.schemaTypeName_eq]
    exact hsound.agree c d hc hd hsame

end Level.Reordered

/-- Two members say the same, except for what they take from their first occurrences. -/
structure Member.Matches (left right : Member) : Prop where
  type_eq : left.type = right.type
  leafKind_eq : left.leafKind = right.leafKind
  conditional_eq : left.conditional = right.conditional
  nested_eq : left.nested.isSome = right.nested.isSome

/-- Two records have the same schema type, list the same fragments and have matching members under the
same response names, each name once; so do the records nested under each name. -/
inductive RecordType.Matches : RecordType → RecordType → Prop
  | mk {left right : RecordType}
    (schemaTypeName_eq : left.schemaTypeName = right.schemaTypeName)
    (mem_fragmentRefs : ∀ name, name ∈ left.fragmentRefs ↔ name ∈ right.fragmentRefs)
    (nodup : (left.members.map (·.responseName)).Nodup)
    (perm : (left.members.map (·.responseName)).Perm (right.members.map (·.responseName)))
    (members : ∀ a ∈ left.members, ∀ b ∈ right.members, a.responseName = b.responseName →
      a.Matches b)
    (nested : ∀ a ∈ left.members, ∀ b ∈ right.members, a.responseName = b.responseName →
      ∀ m n, a.nested = some m → b.nested = some n → Matches m n) : Matches left right

section Matches

variable {registry : FragmentRegistry} {resolve : String → LeafKind} {left right : Level}

private theorem Level.Reordered.exists_spreadsHere (h : left.Reordered right) {name : String}
    (hname : ∃ selection ∈ left.selections, name ∈ selection.spreadsHere) :
    ∃ selection ∈ right.selections, name ∈ selection.spreadsHere := by
  obtain ⟨selection, hselection, hname⟩ := hname
  obtain ⟨other, hother, hreordered⟩ := h.exists_right selection hselection
  exact ⟨other, hother, hreordered.mem_spreadsHere hname⟩

namespace Member.Describes

variable {a b : Member}

private theorem type_eq_of_reordered (ha : a.Describes registry resolve left)
    (hb : b.Describes registry resolve right) (h : left.Reordered right)
    (hname : a.responseName = b.responseName) : a.type = b.type := by
  obtain ⟨occurrence, hselects, hown⟩ := ha.selected
  obtain ⟨other, hother, hsame⟩ := h.exists_selects hselects
  have hleft := ha.type?_eq occurrence hselects hown
  have hright := hb.type?_eq other hother (hsame.responseName_eq.symm.trans (hown.trans hname))
  rw [hsame.type?_eq, hright] at hleft
  exact (Except.ok.inj hleft).symm

private theorem conditional_of_reordered (ha : a.Describes registry resolve left)
    (hb : b.Describes registry resolve right) (h : left.Reordered right)
    (hname : a.responseName = b.responseName) (hconditional : a.conditional = true) :
    b.conditional = true := by
  rw [hb.conditional_iff]
  intro occurrence hselects hown
  obtain ⟨other, hother, hsame⟩ := h.symm.exists_selects hselects
  rw [hsame.conditional_eq, ← h.schemaTypeName_eq]
  exact ha.conditional_iff.mp hconditional other hother
    (hsame.responseName_eq.symm.trans (hown.trans hname.symm))

private theorem nested_of_reordered (ha : a.Describes registry resolve left)
    (hb : b.Describes registry resolve right) (h : left.Reordered right)
    (hname : a.responseName = b.responseName) (hnested : a.nested.isSome = true) :
    b.nested.isSome = true := by
  obtain ⟨occurrence, hselects, hown, hitems⟩ := ha.nested_iff.mp hnested
  obtain ⟨other, hother, hsame⟩ := h.exists_selects hselects
  rw [hb.nested_iff]
  exact ⟨other, hother, hsame.responseName_eq.symm.trans (hown.trans hname),
    mt hsame.selection.items_eq_nil.mpr hitems⟩

private theorem matches_of_reordered (ha : a.Describes registry resolve left)
    (hb : b.Describes registry resolve right) (h : left.Reordered right)
    (hname : a.responseName = b.responseName) : a.Matches b := by
  have htype := ha.type_eq_of_reordered hb h hname
  have hnested : a.nested.isSome = b.nested.isSome := by
    rw [Bool.eq_iff_iff]
    exact ⟨ha.nested_of_reordered hb h hname, hb.nested_of_reordered ha h.symm hname.symm⟩
  refine ⟨htype, ?_, ?_, hnested⟩
  · rw [ha.leafKind_eq, hb.leafKind_eq, hnested, htype]
  · rw [Bool.eq_iff_iff]
    exact ⟨ha.conditional_of_reordered hb h hname, hb.conditional_of_reordered ha h.symm hname.symm⟩

end Member.Describes

namespace RecordType.Describes

variable {first second : RecordType}

private theorem mem_responseNames_iff (h : first.Describes registry resolve left) {name : String} :
    name ∈ first.members.map (·.responseName) ↔
      ∃ occurrence, left.Selects registry occurrence ∧ occurrence.responseName = name := by
  obtain ⟨-, -, -, hselected, hmembers, -⟩ := h
  constructor
  · intro hname
    obtain ⟨member, hmember, rfl⟩ := List.mem_map.mp hname
    exact (hmembers member hmember).selected
  · rintro ⟨occurrence, hselects, rfl⟩
    obtain ⟨member, hmember, hname⟩ := hselected occurrence hselects
    exact List.mem_map.mpr ⟨member, hmember, hname⟩

private theorem responseNames_of_reordered (hfirst : first.Describes registry resolve left)
    (hsecond : second.Describes registry resolve right) (h : left.Reordered right) {name : String}
    (hname : name ∈ first.members.map (·.responseName)) :
    name ∈ second.members.map (·.responseName) := by
  obtain ⟨occurrence, hselects, rfl⟩ := hfirst.mem_responseNames_iff.mp hname
  obtain ⟨other, hother, hsame⟩ := h.exists_selects hselects
  exact hsecond.mem_responseNames_iff.mpr ⟨other, hother, hsame.responseName_eq.symm⟩

private theorem matches_of_reordered (hfirst : first.Describes registry resolve left)
    (hsecond : second.Describes registry resolve right) (h : left.Reordered right) :
    first.Matches second := by
  induction hfirst generalizing second right with
  | @mk first left hfirstType hfirstRefs hfirstNodup hselected hfirstMembers hnested ih =>
    have hfirst : first.Describes registry resolve left :=
      .mk hfirstType hfirstRefs hfirstNodup hselected hfirstMembers hnested
    have hnames (name : String) : name ∈ first.members.map (·.responseName) ↔
        name ∈ second.members.map (·.responseName) :=
      ⟨hfirst.responseNames_of_reordered hsecond h,
        hsecond.responseNames_of_reordered hfirst h.symm⟩
    obtain ⟨hsecondType, hsecondRefs, hsecondNodup, -, hsecondMembers, hsecondNested⟩ := hsecond
    have hmembers : ∀ a ∈ first.members, ∀ b ∈ second.members,
        a.responseName = b.responseName → a.Matches b := by
      intro a ha b hb hname
      exact (hfirstMembers a ha).matches_of_reordered (hsecondMembers b hb) h hname
    refine .mk ?_ ?_ hfirstNodup ?_ hmembers ?_
    · rw [hfirstType, hsecondType, h.schemaTypeName_eq]
    · intro name
      rw [hfirstRefs, hsecondRefs]
      exact ⟨h.exists_spreadsHere, h.symm.exists_spreadsHere⟩
    · exact (List.perm_ext_iff_of_nodup hfirstNodup hsecondNodup).mpr hnames
    · intro a ha b hb hname m n hm hn
      have hbelow : (left.below registry a.responseName a.type).Reordered
          (right.below registry b.responseName b.type) := by
        rw [← hname, ← (hmembers a ha b hb hname).type_eq]
        exact h.below _ _
      exact ih a ha m hm (hsecondNested b hb n hn) hbelow

end RecordType.Describes

end Matches

private theorem FragmentRegistry.Safe.exists_layout_of_reordered {registry : FragmentRegistry}
    (hsafe : registry.Safe) {resolve : String → LeafKind} {schemaTypeName : String}
    {left right : SelectionSet} (h : left.Reordered right) {leftName : String}
    {leftNames : NameAllocator} {record : RecordType}
    (hrecord : (layoutRoot registry resolve leftName schemaTypeName left leftNames).1 = .ok record)
    (rightName : String) (rightNames : NameAllocator) :
    ∃ other, (layoutRoot registry resolve rightName schemaTypeName right rightNames).1 =
      .ok other := by
  rw [layoutRoot_eq_layoutRecord] at hrecord ⊢
  cases hresult : (layoutRecord resolve rightName schemaTypeName
      ([right].flatMap registry.writeOut) (rightNames.reserve rightName)).1 with
  | ok other => exact ⟨other, rfl⟩
  | error error =>
    obtain ⟨level, hreaches, hfault⟩ := hsafe.exists_fault_of_layout_error hresult
    have hroot := Level.Reordered.root schemaTypeName h
    obtain ⟨deeper, hdeeper, hreordered⟩ := hroot.symm.exists_reaches hreaches
    have hsound := hreordered.symm.sound (hsafe.sound_of_layout_ok hrecord deeper hdeeper)
    exact absurd hsound hfault.not_sound

/-- The order of selections decides neither whether a root record is laid out nor, up to the order of
members, what its tree says about schema types, fragments and members. -/
theorem layoutRoot_matches_of_reordered {collection : FragmentCollection}
    {registry : FragmentRegistry} (hbuild : collection.build = .ok registry)
    (resolve : String → LeafKind) (schemaTypeName : String) {left right : SelectionSet}
    (hreordered : left.Reordered right) (leftName rightName : String)
    (leftNames rightNames : NameAllocator) :
    ((∃ record, (layoutRoot registry resolve leftName schemaTypeName left leftNames).1 =
        .ok record) ↔
      ∃ record, (layoutRoot registry resolve rightName schemaTypeName right rightNames).1 =
        .ok record) ∧
    ∀ first second,
      (layoutRoot registry resolve leftName schemaTypeName left leftNames).1 = .ok first →
      (layoutRoot registry resolve rightName schemaTypeName right rightNames).1 = .ok second →
      first.Matches second := by
  have hsafe := FragmentRegistry.safe_of_build hbuild
  refine ⟨⟨?_, ?_⟩, ?_⟩
  · rintro ⟨record, hrecord⟩
    exact hsafe.exists_layout_of_reordered hreordered hrecord rightName rightNames
  · rintro ⟨record, hrecord⟩
    exact hsafe.exists_layout_of_reordered hreordered.symm hrecord leftName leftNames
  · intro first second hfirst hsecond
    rw [FragmentRegistry.layoutRoot_eq_layoutRecord] at hfirst hsecond
    exact (hsafe.describes_of_layout_ok hfirst).matches_of_reordered
      (hsafe.describes_of_layout_ok hsecond) (.root schemaTypeName hreordered)

section Friends

def idField : Field :=
  ⟨{ responseName := "id", fieldName := "id", typeText := "ID!" }, .empty⟩

def nameField : Field :=
  ⟨{ responseName := "name", fieldName := "name", typeText := "String" }, .empty⟩

def friendField (selection : SelectionSet) : Field :=
  ⟨{ responseName := "friend", fieldName := "friend", typeText := "User" }, selection⟩

/-- An inline fragment that selects the name. -/
def nameOn (typeCondition : String) : InlineFragment where
  typeCondition := typeCondition
  possibleTypes := [typeCondition]
  fields := [nameField]
  spreads := []

def idBeforeFriend : SelectionSet where
  fields := [idField, friendField ⟨[idField, nameField], [], []⟩]
  spreads := []
  inlineFragments := [nameOn "Admin", nameOn "Guest"]

def friendBeforeId : SelectionSet where
  fields := [friendField ⟨[nameField, idField], [], []⟩, idField]
  spreads := []
  inlineFragments := [nameOn "Guest", nameOn "Admin"]

private theorem reordered_friend : idBeforeFriend.Reordered friendBeforeId := by
  have hbelow : SelectionSet.Reordered ⟨[idField, nameField], [], []⟩ ⟨[nameField, idField], [], []⟩ :=
    .mk [(idField, idField), (nameField, nameField)] [] (.refl _) (.swap _ _ _) (by simp)
      (by simp [SelectionSet.Reordered.refl]) (.refl _) (.refl _) (.refl _) (by simp) (by simp)
  exact .mk [(idField, idField), (friendField _, friendField _)]
    [(nameOn "Admin", nameOn "Admin"), (nameOn "Guest", nameOn "Guest")]
    (.refl _) (.swap _ _ _) (by simp [friendField])
    (by simp [friendField, SelectionSet.Reordered.refl, hbelow]) (.refl _) (.refl _) (.swap _ _ _)
    (by simp) (by simp [SelectionSet.Reordered.refl])

theorem layoutRoot_matches_friend : ∃ registry first second,
    FragmentCollection.empty.build = .ok registry ∧
    (layoutRoot registry (fun _ => .enum) "Data" "User" idBeforeFriend .initial).1 = .ok first ∧
    (layoutRoot registry (fun _ => .enum) "Data" "User" friendBeforeId .initial).1 = .ok second ∧
    first.Matches second := by
  have hbuild : FragmentCollection.empty.build = .ok ⟨[]⟩ := rfl
  obtain ⟨hiff, hmatches⟩ := layoutRoot_matches_of_reordered hbuild (fun _ => .enum) "User"
    reordered_friend "Data" "Data" .initial .initial
  have hok : (layoutRoot ⟨[]⟩ (fun _ => .enum) "Data" "User" idBeforeFriend .initial).1.isOk =
      true := by decide +kernel
  cases hfirst : (layoutRoot ⟨[]⟩ (fun _ => .enum) "Data" "User" idBeforeFriend .initial).1 with
  | error error =>
    rw [hfirst] at hok
    cases hok
  | ok first =>
    obtain ⟨second, hsecond⟩ := hiff.mp ⟨first, hfirst⟩
    exact ⟨⟨[]⟩, first, second, hbuild, hfirst, hsecond, hmatches first second hfirst hsecond⟩

end Friends

end ResultLayout
