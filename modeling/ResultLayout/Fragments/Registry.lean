import ResultLayout.Fragments.Cycle
/-!
# Fragment registries

Fragments are collected first and checked together afterwards. A collection keeps the first
definition under each name. It becomes a registry if no spread leads back to where it came from and
every name that is spread is defined; otherwise all cycles are reported, then all undefined names.
-/
namespace ResultLayout

/-- What is wrong with a set of fragments. -/
inductive RegistryError where
  | duplicateDefinition (fragmentName : String) (first second : SourceLocation)
  /-- The path ends with a name that stands on it before. -/
  | spreadCycle (path : List String)
  | undefinedSpread (fragmentName undefinedName : String) (location : SourceLocation)
deriving DecidableEq, Repr

def RegistryError.message : RegistryError → String
  | duplicateDefinition fragmentName _ _ => "Duplicate fragment definition: '" ++ fragmentName ++ "'"
  | spreadCycle path => "Fragment cycle detected: " ++ " → ".intercalate path
  | undefinedSpread fragmentName undefinedName _ =>
    "Fragment '" ++ fragmentName ++ "' references undefined fragment '" ++ undefinedName ++ "'"

/-- Fragments in the order in which they were added, each name once. -/
structure FragmentCollection where
  fragments : List Fragment
  nodup_names : (fragments.map (·.name)).Nodup

/-- The fragments of a checked collection. -/
structure FragmentRegistry where
  fragments : List Fragment

def findFragment? (fragments : List Fragment) (name : String) : Option Fragment :=
  fragments.find? (·.name == name)

theorem findFragment?_eq_none {fragments : List Fragment} {name : String} :
    findFragment? fragments name = none ↔ name ∉ fragments.map (·.name) := by
  simp [findFragment?]

theorem name_of_findFragment? {fragments : List Fragment} {name : String} {fragment : Fragment}
    (h : findFragment? fragments name = some fragment) : fragment.name = name := by
  simpa using List.find?_some h

namespace FragmentCollection

protected def empty : FragmentCollection := ⟨[], List.nodup_nil⟩

/-- Adds a fragment whose name is new. -/
def add (collection : FragmentCollection) (fragment : Fragment) :
    Except RegistryError FragmentCollection :=
  match h : findFragment? collection.fragments fragment.name with
  | some first => .error (.duplicateDefinition fragment.name first.location fragment.location)
  | none =>
    .ok {
      fragments := collection.fragments ++ [fragment]
      nodup_names := by
        have hnew := findFragment?_eq_none.mp h
        have hold := collection.nodup_names
        rw [List.map_append, List.nodup_append]
        refine ⟨hold, by simp, ?_⟩
        intro a ha b hb hab
        simp only [List.map_cons, List.map_nil, List.mem_singleton] at hb
        exact hnew (hb ▸ hab ▸ ha) }

/-- Adds all fragments whose names are new and reports each of the others. -/
def addAll (collection : FragmentCollection) : List Fragment → FragmentCollection × List RegistryError
  | [] => (collection, [])
  | fragment :: rest =>
    match collection.add fragment with
    | .ok grown => grown.addAll rest
    | .error duplicate =>
      let (grown, duplicates) := collection.addAll rest
      (grown, duplicate :: duplicates)

def ofList (fragments : List Fragment) : FragmentCollection × List RegistryError :=
  FragmentCollection.empty.addAll fragments

def cycleErrors (collection : FragmentCollection) : List RegistryError :=
  (cyclePaths collection.fragments).map .spreadCycle

/-- One error for each undefined name that a fragment spreads, where the walk first meets it. -/
def undefinedSpreadErrors (collection : FragmentCollection) : List RegistryError :=
  collection.fragments.flatMap fun fragment =>
    (firstSeen (fragment.spreadNames.filter fun name =>
        (findFragment? collection.fragments name).isNone)).map fun name =>
      .undefinedSpread fragment.name name fragment.location

/-- Checks a collection and reports everything that is wrong with it. -/
def build (collection : FragmentCollection) : Except (List RegistryError) FragmentRegistry :=
  match collection.cycleErrors ++ collection.undefinedSpreadErrors with
  | [] => .ok ⟨collection.fragments⟩
  | errors => .error errors

end FragmentCollection

namespace FragmentRegistry

def find? (registry : FragmentRegistry) (name : String) : Option Fragment :=
  findFragment? registry.fragments name

/-- The registry of some fragments; repeated names are reported before anything else. -/
def ofFragments (fragments : List Fragment) : Except (List RegistryError) FragmentRegistry :=
  match FragmentCollection.ofList fragments with
  | (collection, []) => collection.build
  | (_, duplicates) => .error duplicates

end FragmentRegistry
end ResultLayout
