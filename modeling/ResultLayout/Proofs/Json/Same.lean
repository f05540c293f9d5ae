import ResultLayout.Json.Value
import Mathlib.Data.List.Forall2
/-!
# Values that are the same

The members of an object have no order of their own: two objects are the same value if they hold the
same under every key. Arrays are the same if they have the same items in the same order, and all other
values are the same only if they are equal.
-/
namespace ResultLayout.Json

/-- Two values are the same but for the order of object members. -/
inductive Same : Json → Json → Prop
  | null : Same null null
  | bool (value : Bool) : Same (bool value) (bool value)
  | string (text : String) : Same (string text) (string text)
  | array {items others : List Json} (hitems : List.Forall₂ Same items others) :
    Same (array items) (array others)
  | object {members others : List (String × Json)}
    (hmembers : ∀ key, Option.Rel Same (members.lookup key) (others.lookup key)) :
    Same (object members) (object others)

private theorem sizeOf_lt_of_lookup {members : List (String × Json)} {key : String} {value : Json}
    (h : members.lookup key = some value) : sizeOf value < sizeOf members := by
  obtain ⟨before, after, hmembers, -⟩ := List.lookup_eq_some_iff.mp h
  have hmem : (key, value) ∈ members := by simp [hmembers]
  have hlt := List.sizeOf_lt_of_mem hmem
  simp only [Prod.mk.sizeOf_spec] at hlt
  omega

theorem same_refl (json : Json) : json.Same json := by
  cases json with
  | null => exact .null
  | bool value => exact .bool value
  | string text => exact .string text
  | array items => exact .array (List.forall₂_same.mpr fun item hitem => same_refl item)
  | object members =>
    apply Same.object
    intro key
    cases hlookup : members.lookup key with
    | none => exact .none
    | some value => exact .some (same_refl value)
termination_by sizeOf json
decreasing_by
  · have := List.sizeOf_lt_of_mem hitem
    simp only [array.sizeOf_spec]
    omega
  · have := sizeOf_lt_of_lookup hlookup
    simp only [object.sizeOf_spec]
    omega

theorem Same.under {members others : List (String × Json)}
    (h : (Json.object members).Same (.object others)) (key : String) {value other : Json}
    (hvalue : members.lookup key = some value) (hother : others.lookup key = some other) :
    value.Same other := by
  cases h with
  | object hmembers =>
    have hkey := hmembers key
    rw [hvalue, hother] at hkey
    cases hkey with
    | some hsame => exact hsame

@[simp] theorem same_string_iff {text other : String} :
    (string text).Same (string other) ↔ text = other := by
  constructor
  · intro h
    cases h
    rfl
  · rintro rfl
    exact .string text

@[simp] theorem same_bool_iff {value other : Bool} : (bool value).Same (bool other) ↔ value = other := by
  constructor
  · intro h
    cases h
    rfl
  · rintro rfl
    exact .bool value

@[simp] theorem same_ofOption_iff {text other : Option String} :
    (ofOption text).Same (ofOption other) ↔ text = other := by
  constructor
  · intro h
    cases text <;> cases other <;> cases h <;> rfl
  · rintro rfl
    exact same_refl _

theorem Same.forall₂ {items others : List Json} (h : (Json.array items).Same (.array others)) :
    List.Forall₂ Same items others := by
  cases h with
  | array hitems => exact hitems

/-- Two arrays of the forms of some things are the same only if the things are. -/
theorem Same.eq_of_map {α : Type} {toJson : α → Json} {left right : List α}
    (h : (Json.array (left.map toJson)).Same (.array (right.map toJson)))
    (heq : ∀ a ∈ left, ∀ b ∈ right, (toJson a).Same (toJson b) → a = b) : left = right := by
  have hitems := h.forall₂
  rw [List.forall₂_map_left_iff, List.forall₂_map_right_iff] at hitems
  clear h
  induction hitems with
  | nil => rfl
  | @cons a b left right hab _ ih =>
    rw [heq a List.mem_cons_self b List.mem_cons_self hab,
      ih fun c hc d hd => heq c (List.mem_cons_of_mem a hc) d (List.mem_cons_of_mem b hd)]

@[simp] theorem same_ofStrings_iff {texts others : List String} :
    (ofStrings texts).Same (ofStrings others) ↔ texts = others := by
  constructor
  · exact fun h => h.eq_of_map fun _ _ _ _ => same_string_iff.mp
  · rintro rfl
    exact same_refl _

end ResultLayout.Json
