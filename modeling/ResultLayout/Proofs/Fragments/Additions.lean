import ResultLayout.Proofs.Fragments.Safety
import Mathlib.Data.List.Induction
/-!
# Adding fragments

A collection grows by calls that add one fragment or a row of fragments, and any of these calls may
fail. The history of the calls is the sequence of all fragments that they were given, the rejected
ones included. At every moment the collection looks up, under each name, the first fragment that the
history has under it, and it keeps the names in the order of the history. One added fragment
preserves this, whether it is accepted or not, so every sequence of calls does.

A fragment is therefore judged by the history alone: it is a duplicate if its name stands there, and
the report of it cites the first definition.
-/
namespace ResultLayout

/-- A call that adds to a collection. -/
inductive Addition where
  | one (fragment : Fragment)
  | row (fragments : List Fragment)

def Addition.fragments : Addition → List Fragment
  | one fragment => [fragment]
  | row fragments => fragments

/-- All fragments that some calls were given, in the order of the calls. -/
def Addition.history (calls : List Addition) : List Fragment := calls.flatMap Addition.fragments

private theorem findFragment?_isSome_iff {fragments : List Fragment} {name : String} :
    (findFragment? fragments name).isSome = true ↔
      ∃ fragment ∈ fragments, fragment.name = name := by
  simp [findFragment?]

namespace FragmentCollection

/-- What is reported of a fragment that is added after others: nothing if its name is new. -/
def duplicate? (earlier : List Fragment) (fragment : Fragment) : Option RegistryError :=
  (findFragment? earlier fragment.name).map fun first =>
    .duplicateDefinition fragment.name first.location fragment.location

/-- The fragments of a row with what is reported of each. A fragment is compared with all that were
added before it, those of the row included. -/
def verdicts (earlier fragments : List Fragment) : List (Fragment × Option RegistryError) :=
  fragments.mapIdx fun i fragment => (fragment, duplicate? (earlier ++ fragments.take i) fragment)

private theorem verdicts_cons (earlier : List Fragment) (fragment : Fragment)
    (rest : List Fragment) :
    verdicts earlier (fragment :: rest) =
      (fragment, duplicate? earlier fragment) :: verdicts (earlier ++ [fragment]) rest := by
  simp [verdicts, List.mapIdx_cons]

/-- The errors among some verdicts. -/
def rejections (judged : List (Fragment × Option RegistryError)) : List RegistryError :=
  judged.filterMap Prod.snd

/-- The fragments of which nothing is reported. -/
def newcomers (judged : List (Fragment × Option RegistryError)) : List Fragment :=
  (judged.filter fun verdict => verdict.2.isNone).map Prod.fst

/-- Takes a call and answers with the errors that it reports. A single fragment that is rejected
leaves the collection as it is. -/
def receive (collection : FragmentCollection) : Addition → FragmentCollection × List RegistryError
  | .one fragment =>
    match collection.add fragment with
    | .ok grown => (grown, [])
    | .error duplicate => (collection, [duplicate])
  | .row fragments => collection.addAll fragments

/-- The collection after some calls, none of which needs to succeed. -/
def after (calls : List Addition) : FragmentCollection :=
  calls.foldl (fun collection call => (collection.receive call).1) .empty

private theorem receive_eq_addAll (collection : FragmentCollection) (call : Addition) :
    collection.receive call = collection.addAll call.fragments := by
  cases call with
  | one fragment =>
    rw [receive, Addition.fragments, addAll]
    cases collection.add fragment <;> rfl
  | row fragments => rfl

/-- The collection keeps the first definitions of a history of fragments, in the order in which
their names are first met. -/
structure KeepsFirst (collection : FragmentCollection) (history : List Fragment) : Prop where
  find?_eq : ∀ name, findFragment? collection.fragments name = findFragment? history name
  ordered : collection.fragments.Pairwise fun a b =>
    (history.map (·.name)).idxOf a.name < (history.map (·.name)).idxOf b.name

namespace KeepsFirst

variable {collection : FragmentCollection} {history : List Fragment}

protected theorem empty : FragmentCollection.empty.KeepsFirst [] where
  find?_eq _ := rfl
  ordered := .nil

private theorem name_mem (h : collection.KeepsFirst history) {fragment : Fragment}
    (hmem : fragment ∈ collection.fragments) : fragment.name ∈ history.map (·.name) := by
  by_contra hnew
  have hfind := (findFragment?_eq_some collection.nodup_names).mpr ⟨hmem, rfl⟩
  rw [h.find?_eq, findFragment?_eq_none.mpr hnew] at hfind
  cases hfind

private theorem ordered_append (h : collection.KeepsFirst history) (fragment : Fragment) :
    collection.fragments.Pairwise fun a b =>
      ((history ++ [fragment]).map (·.name)).idxOf a.name <
        ((history ++ [fragment]).map (·.name)).idxOf b.name := by
  refine h.ordered.imp_of_mem ?_
  intro a b ha hb hless
  simpa only [List.map_append, List.idxOf_append, h.name_mem ha, h.name_mem hb, if_true] using hless

private theorem add_old (h : collection.KeepsFirst history) {fragment first : Fragment}
    (hold : findFragment? history fragment.name = some first) :
    collection.add fragment =
        .error (.duplicateDefinition fragment.name first.location fragment.location) ∧
      collection.KeepsFirst (history ++ [fragment]) := by
  refine ⟨add_of_old ((h.find?_eq _).trans hold), ?_, h.ordered_append fragment⟩
  intro name
  rw [h.find?_eq, findFragment?, findFragment?, List.find?_append]
  by_cases hname : fragment.name = name
  · subst hname
    rw [findFragment?] at hold
    rw [hold]
    rfl
  · simp [hname]

private theorem add_new (h : collection.KeepsFirst history) {fragment : Fragment}
    (hnew : findFragment? history fragment.name = none) :
    ∃ grown, collection.add fragment = .ok grown ∧
      grown.fragments = collection.fragments ++ [fragment] ∧
      grown.KeepsFirst (history ++ [fragment]) := by
  obtain ⟨grown, hadded, hgrown⟩ := add_of_new ((h.find?_eq _).trans hnew)
  refine ⟨grown, hadded, hgrown, ?_, ?_⟩
  · intro name
    have hbefore := h.find?_eq name
    rw [findFragment?, findFragment?] at hbefore
    rw [hgrown, findFragment?, findFragment?, List.find?_append, List.find?_append, hbefore]
  · rw [hgrown, List.pairwise_append]
    refine ⟨h.ordered_append fragment, List.pairwise_singleton _ _, ?_⟩
    intro a ha b hb
    rw [List.mem_singleton.mp hb, List.map_append, List.idxOf_append, List.idxOf_append,
      if_pos (h.name_mem ha), if_neg (findFragment?_eq_none.mp hnew)]
    exact (List.idxOf_lt_length_of_mem (h.name_mem ha)).trans_le (Nat.le_add_left _ _)

/-- Of a row, the duplicates are reported and all others are added, each in the order of the row. -/
theorem addAll (h : collection.KeepsFirst history) (fragments : List Fragment) :
    (collection.addAll fragments).1.KeepsFirst (history ++ fragments) ∧
      (collection.addAll fragments).1.fragments =
        collection.fragments ++ newcomers (verdicts history fragments) ∧
      (collection.addAll fragments).2 = rejections (verdicts history fragments) := by
  induction fragments generalizing collection history with
  | nil => simpa [FragmentCollection.addAll, verdicts, newcomers, rejections] using h
  | cons fragment rest ih =>
    rw [FragmentCollection.addAll, verdicts_cons, duplicate?]
    cases hfind : findFragment? history fragment.name with
    | some first =>
      obtain ⟨hadded, hkeeps⟩ := h.add_old hfind
      obtain ⟨hrest, hfragments, hreported⟩ := ih hkeeps
      rw [hadded]
      refine ⟨?_, ?_, ?_⟩
      · simpa using hrest
      · simpa [newcomers] using hfragments
      · simpa [rejections] using hreported
    | none =>
      obtain ⟨grown, hadded, hgrown, hkeeps⟩ := h.add_new hfind
      obtain ⟨hrest, hfragments, hreported⟩ := ih hkeeps
      rw [hadded]
      refine ⟨?_, ?_, ?_⟩
      · simpa using hrest
      · simpa [newcomers, hgrown] using hfragments
      · simpa [rejections] using hreported

end KeepsFirst

private theorem after_append_singleton (calls : List Addition) (call : Addition) :
    after (calls ++ [call]) = ((after calls).receive call).1 := by
  rw [after, List.foldl_append]
  rfl

private theorem keepsFirst_after (calls : List Addition) :
    (after calls).KeepsFirst (Addition.history calls) := by
  induction calls using List.reverseRecOn with
  | nil => exact .empty
  | append_singleton calls call ih =>
    rw [after_append_singleton, receive_eq_addAll, Addition.history, List.flatMap_append,
      List.flatMap_singleton]
    exact (ih.addAll call.fragments).1

private theorem add_eq_error_iff {collection : FragmentCollection} {fragment : Fragment}
    {error : RegistryError} : collection.add fragment = .error error ↔
      ∃ first, findFragment? collection.fragments fragment.name = some first ∧
        error = .duplicateDefinition fragment.name first.location fragment.location := by
  cases hfind : findFragment? collection.fragments fragment.name with
  | some first =>
    rw [add_of_old hfind]
    simp [eq_comm]
  | none =>
    obtain ⟨grown, hadded, -⟩ := add_of_new hfind
    simp [hadded]

private theorem receive_one_eq_self_iff {collection : FragmentCollection} {fragment : Fragment} :
    (collection.receive (.one fragment)).1 = collection ↔
      ∃ error, collection.add fragment = .error error := by
  cases hfind : findFragment? collection.fragments fragment.name with
  | some first =>
    rw [receive, add_of_old hfind]
    simp
  | none =>
    obtain ⟨grown, hadded, hgrown⟩ := add_of_new hfind
    rw [receive, hadded]
    simp only [reduceCtorEq, exists_false, iff_false]
    rintro rfl
    simp at hgrown

/-- After any calls the collection looks up, under each name, the first fragment ever added under
it, and keeps the names in the order of their first additions. A further fragment is rejected
exactly if its name was added before, and exactly then it changes nothing; the report cites the
first definition. Of a further call, the duplicates are reported in the order in which they are
given and all other fragments are added. -/
theorem first_definition_wins (calls : List Addition) :
    (∀ name,
      findFragment? (after calls).fragments name =
        findFragment? (Addition.history calls) name) ∧
    ((after calls).fragments.Pairwise fun a b =>
      ((Addition.history calls).map (·.name)).idxOf a.name <
        ((Addition.history calls).map (·.name)).idxOf b.name) ∧
    (∀ fragment,
      ((∃ error, (after calls).add fragment = .error error) ↔
        ∃ earlier ∈ Addition.history calls, earlier.name = fragment.name) ∧
      (after (calls ++ [.one fragment]) = after calls ↔
        ∃ earlier ∈ Addition.history calls, earlier.name = fragment.name) ∧
      ∀ error, (after calls).add fragment = .error error ↔
        ∃ first, findFragment? (Addition.history calls) fragment.name = some first ∧
          error = .duplicateDefinition fragment.name first.location fragment.location) ∧
    ∀ call,
      ((after calls).receive call).2 =
        rejections (verdicts (Addition.history calls) call.fragments) ∧
      (after (calls ++ [call])).fragments = (after calls).fragments ++
        newcomers (verdicts (Addition.history calls) call.fragments) := by
  have hkeeps := keepsFirst_after calls
  have hrejected (fragment : Fragment) : (∃ error, (after calls).add fragment = .error error) ↔
      ∃ earlier ∈ Addition.history calls, earlier.name = fragment.name := by
    rw [← findFragment?_isSome_iff, ← hkeeps.find?_eq, Option.isSome_iff_exists]
    simp [add_eq_error_iff]
  refine ⟨hkeeps.find?_eq, hkeeps.ordered, ?_, ?_⟩
  · intro fragment
    refine ⟨hrejected fragment, ?_, ?_⟩
    · rw [after_append_singleton, receive_one_eq_self_iff, hrejected]
    · intro error
      rw [add_eq_error_iff, hkeeps.find?_eq]
  · intro call
    obtain ⟨-, hfragments, hreported⟩ := hkeeps.addAll call.fragments
    rw [after_append_singleton, receive_eq_addAll]
    exact ⟨hreported, hfragments⟩

example : ((after [.one { name := "Person", typeCondition := "User", filePath := "a" }]).receive
    (.row [{ name := "Friends", typeCondition := "User", filePath := "b" },
      { name := "Person", typeCondition := "User", filePath := "c" },
      { name := "Friends", typeCondition := "User" }])).2 =
    [.duplicateDefinition "Person" (.file "a") (.file "c"),
      .duplicateDefinition "Friends" (.file "b") .unknown] := by
  decide +kernel

end FragmentCollection
end ResultLayout
