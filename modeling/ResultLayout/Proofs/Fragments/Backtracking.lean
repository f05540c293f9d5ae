import ResultLayout.Proofs.Fragments.Search
import Mathlib.Data.Finset.Basic
/-!
# Backtracking

All calls of the search for cycles can work on one state: the path, the set of the names on it, and
the reports made so far. A call for a name on the path reports the path closed by that name, a call
for an undefined name does nothing, and any other call enters its fragment, makes a call for each name
that the fragment spreads, and leaves the fragment again.

Entering puts a new name on the path and leaving takes it off, so a call ends with the path and the
set with which it began, and each call for a spread name finds them as the one before it did. A
fragment is entered only if its name is not in the set, so calls inside each other enter different
fragments, whether spreads lead round in circles or not. Here calls have no result if they are nested
deeper than a given depth; one more than the number of fragments is deep enough.
-/
namespace ResultLayout

/-- What the calls of a search share. -/
structure SearchState where
  /-- The fragments that are entered and not yet left. -/
  path : List String
  visiting : Finset String
  reports : List (List String)
  /-- The normal forms of the reports. -/
  seen : List (List String)
deriving DecidableEq

namespace SearchState

protected def empty : SearchState := ⟨[], ∅, [], []⟩

def push (s : SearchState) (name : String) : SearchState := { s with path := s.path ++ [name] }

def pop (s : SearchState) : SearchState := { s with path := s.path.dropLast }

/-- Reports a path unless one of its normal form is reported. -/
def report (s : SearchState) (path : List String) : SearchState :=
  if s.seen.contains (normalizeCycle path) then s
  else { s with reports := s.reports ++ [path], seen := normalizeCycle path :: s.seen }

/-- Reports the path closed by a name. -/
def close (s : SearchState) (name : String) : SearchState :=
  let closed := s.push name
  (closed.report closed.path).pop

def enter (s : SearchState) (name : String) : SearchState :=
  { s.push name with visiting := insert name s.visiting }

def leave (s : SearchState) (name : String) : SearchState :=
  { s.pop with visiting := s.visiting.erase name }

/-- The state in which the search from another fragment begins. -/
def restart (s : SearchState) : SearchState := { s with path := [], visiting := ∅ }

/-- The fragments that may still be entered. -/
def unvisited (fragments : List Fragment) (s : SearchState) : List Fragment :=
  fragments.filter (·.name ∉ s.visiting)

end SearchState

/-- Calls for one name after the other. -/
def searchEach (call : String → SearchState → Option SearchState) :
    List String → SearchState → Option SearchState
  | [], s => some s
  | name :: names, s => (call name s).bind (searchEach call names)

/-- The call for a name, without a result if it is nested deeper than allowed. -/
def searchCycles (fragments : List Fragment) :
    (depth : Nat) → String → SearchState → Option SearchState
  | 0, _, _ => none
  | depth + 1, name, s =>
    if name ∈ s.visiting then some (s.close name)
    else
      match findFragment? fragments name with
      | none => some s
      | some fragment =>
        (searchEach (searchCycles fragments depth) fragment.spreadNames (s.enter name)).map
          (·.leave name)

/-- Searches from one name after the other; only the reports are kept from one to the next. -/
def searchFromEach (fragments : List Fragment) (depth : Nat) :
    List String → SearchState → Option SearchState :=
  searchEach fun name s => searchCycles fragments depth name s.restart

def searchFromAll (fragments : List Fragment) (depth : Nat) : Option SearchState :=
  searchFromEach fragments depth (fragments.map (·.name)) .empty

/-- The call for a name makes another call, for a name that its fragment spreads, when the calls for
the names before that one have ended. -/
inductive SearchCalls (fragments : List Fragment) (name : String) (s : SearchState) :
    String → SearchState → Prop
  | spread {fragment : Fragment} {before after : List String} {next : String} {depth : Nat}
    {t : SearchState} (hnew : name ∉ s.visiting)
    (hfind : findFragment? fragments name = some fragment)
    (hspreads : fragment.spreadNames = before ++ next :: after)
    (hbefore : searchEach (searchCycles fragments depth) before (s.enter name) = some t) :
    SearchCalls fragments name s next t

/-- The calls that are made in a search from all fragments, with the state at their entry. -/
inductive SearchReaches (fragments : List Fragment) : (depth : Nat) → String → SearchState → Prop
  | outermost {before after : List String} {name : String} {depth : Nat} {s : SearchState}
    (hnames : fragments.map (·.name) = before ++ name :: after)
    (hbefore : searchFromEach fragments depth before .empty = some s) :
    SearchReaches fragments 1 name s.restart
  | inner {depth : Nat} {name next : String} {s t : SearchState}
    (h : SearchReaches fragments depth name s) (hcalls : SearchCalls fragments name s next t) :
    SearchReaches fragments (depth + 1) next t

/-- The path and the set are those that were there before. -/
structure SearchState.Restored (s t : SearchState) : Prop where
  path : t.path = s.path
  visiting : t.visiting = s.visiting

section Restored

variable {fragments : List Fragment} {s t u : SearchState} {name : String}

namespace SearchState

theorem Restored.refl (s : SearchState) : Restored s s := ⟨rfl, rfl⟩

theorem Restored.trans (hst : Restored s t) (htu : Restored t u) : Restored s u :=
  ⟨htu.path.trans hst.path, htu.visiting.trans hst.visiting⟩

private theorem restored_report (s : SearchState) (path : List String) :
    Restored s (s.report path) := by
  rw [report]
  split
  · exact .refl s
  · exact ⟨rfl, rfl⟩

private theorem close_eq (s : SearchState) (name : String) :
    s.close name = s.report (s.path ++ [name]) := by
  rw [close, push, report, report]
  split <;> simp [pop]

private theorem Restored.leave (hnew : name ∉ s.visiting) (h : Restored (s.enter name) t) :
    Restored s (t.leave name) where
  path := by
    change t.path.dropLast = s.path
    rw [h.path]
    exact List.dropLast_concat
  visiting := by
    change t.visiting.erase name = s.visiting
    rw [h.visiting]
    exact Finset.erase_insert hnew

end SearchState

open SearchState

private theorem restored_searchEach {call : String → SearchState → Option SearchState}
    (hcall : ∀ name s t, call name s = some t → Restored s t) {names : List String}
    (h : searchEach call names s = some t) : Restored s t := by
  induction names generalizing s with
  | nil =>
    obtain rfl := Option.some.inj h
    exact .refl s
  | cons name names ih =>
    obtain ⟨u, hu, hrest⟩ := Option.bind_eq_some_iff.mp h
    exact (hcall name s u hu).trans (ih hrest)

/-- However a call ends, it leaves the path and the set as it found them. -/
private theorem restored_searchCycles {depth : Nat}
    (h : searchCycles fragments depth name s = some t) :
    Restored s t := by
  induction depth generalizing name s t with
  | zero => cases h
  | succ depth ih =>
    rw [searchCycles] at h
    split at h
    next =>
      obtain rfl := Option.some.inj h
      rw [close_eq]
      exact restored_report s _
    next hnew =>
      split at h
      next =>
        obtain rfl := Option.some.inj h
        exact .refl s
      next fragment =>
        obtain ⟨u, hu, rfl⟩ := Option.map_eq_some_iff.mp h
        exact Restored.leave hnew (restored_searchEach (fun name s t => ih) hu)

end Restored

section Tracks

/-- The path has no name twice, and the set holds its names. -/
structure SearchState.Tracks (s : SearchState) : Prop where
  nodup : s.path.Nodup
  visiting : s.visiting = s.path.toFinset

variable {fragments : List Fragment} {s t : SearchState} {name next : String}

namespace SearchState

theorem Tracks.mem_iff (h : s.Tracks) : name ∈ s.visiting ↔ name ∈ s.path := by
  rw [h.visiting, List.mem_toFinset]

private theorem tracks_restart (s : SearchState) : s.restart.Tracks := ⟨List.nodup_nil, rfl⟩

theorem Tracks.enter (h : s.Tracks) (hnew : name ∉ s.visiting) : (s.enter name).Tracks where
  nodup := by
    change (s.path ++ [name]).Nodup
    rw [← List.concat_eq_append, List.nodup_concat]
    exact ⟨mt h.mem_iff.mpr hnew, h.nodup⟩
  visiting := by
    change insert name s.visiting = (s.path ++ [name]).toFinset
    ext other
    simp only [h.visiting, Finset.mem_insert, List.mem_toFinset, List.mem_append,
      List.mem_singleton, or_comm]

private theorem Tracks.of_restored (h : s.Tracks) (hst : Restored s t) : t.Tracks where
  nodup := hst.path ▸ h.nodup
  visiting := by rw [hst.visiting, hst.path, h.visiting]

private theorem Tracks.unvisited_eq (h : s.Tracks) (fragments : List Fragment) :
    unvisited fragments s = unentered fragments s.path := by
  simp only [unvisited, unentered, h.mem_iff]

private theorem Tracks.length_unvisited_lt (h : s.Tracks) (hnew : name ∉ s.visiting)
    {fragment : Fragment}
    (hfind : findFragment? fragments name = some fragment) (ht : Restored (s.enter name) t) :
    (unvisited fragments t).length < (unvisited fragments s).length := by
  have hpath : t.path = s.path ++ [name] := ht.path
  rw [((h.enter hnew).of_restored ht).unvisited_eq, h.unvisited_eq, hpath]
  exact length_unentered_lt (mt h.mem_iff.mpr hnew) hfind

end SearchState

open SearchState

private theorem SearchCalls.restored (h : SearchCalls fragments name s next t) :
    name ∉ s.visiting ∧ (∃ fragment, findFragment? fragments name = some fragment) ∧
      Restored (s.enter name) t := by
  obtain ⟨hnew, hfind, -, hbefore⟩ := h
  exact ⟨hnew, ⟨_, hfind⟩, restored_searchEach (fun _ _ _ => restored_searchCycles) hbefore⟩

private theorem SearchCalls.tracks (h : SearchCalls fragments name s next t) (hs : s.Tracks) :
    t.Tracks := by
  obtain ⟨hnew, -, hrestored⟩ := h.restored
  exact (hs.enter hnew).of_restored hrestored

private theorem SearchCalls.length_unvisited_lt (h : SearchCalls fragments name s next t)
    (hs : s.Tracks) : (unvisited fragments t).length < (unvisited fragments s).length := by
  obtain ⟨hnew, ⟨fragment, hfind⟩, hrestored⟩ := h.restored
  exact hs.length_unvisited_lt hnew hfind hrestored

private theorem SearchReaches.tracks {depth : Nat} (h : SearchReaches fragments depth name s) :
    s.Tracks := by
  induction h with
  | outermost => exact tracks_restart _
  | inner _ hcalls ih => exact hcalls.tracks ih

private theorem SearchReaches.depth_le {depth : Nat} (h : SearchReaches fragments depth name s) :
    depth + (unvisited fragments s).length ≤ fragments.length + 1 := by
  induction h with
  | @outermost _ _ _ _ s =>
    have hall : (unvisited fragments s.restart).length ≤ fragments.length :=
      List.length_filter_le _ _
    omega
  | inner h hcalls ih =>
    have hless := hcalls.length_unvisited_lt h.tracks
    omega

end Tracks

section Reports

variable {fragments : List Fragment} {s : SearchState} {name : String}

namespace SearchState

def reportEach (s : SearchState) (paths : List (List String)) : SearchState := paths.foldl report s

private theorem restored_reportEach (s : SearchState) (paths : List (List String)) :
    Restored s (s.reportEach paths) := by
  induction paths generalizing s with
  | nil => exact .refl s
  | cons path paths ih => exact (restored_report s path).trans (ih (s.report path))

private theorem reports_reportEach (s : SearchState) (paths : List (List String)) :
    (s.reportEach paths).reports =
      s.reports ++ firstOfEachAfter normalizeCycle s.seen paths := by
  induction paths generalizing s with
  | nil => exact (List.append_nil s.reports).symm
  | cons path paths ih =>
    change ((s.report path).reportEach paths).reports = _
    rw [ih, report, firstOfEachAfter]
    split
    · rfl
    · simp

private theorem reportEach_enter (s : SearchState) (name : String) (paths : List (List String)) :
    (s.enter name).reportEach paths = (s.reportEach paths).enter name := by
  induction paths generalizing s with
  | nil => rfl
  | cons path paths ih =>
    have hfirst : (s.enter name).report path = (s.report path).enter name := by
      by_cases hseen : normalizeCycle path ∈ s.seen <;> simp [report, enter, push, hseen]
    change ((s.enter name).report path).reportEach paths = _
    rw [hfirst, ih]
    rfl

private theorem leave_enter {s t : SearchState} (hnew : name ∉ s.visiting) (h : Restored s t) :
    (t.enter name).leave name = t := by
  rw [← h.visiting] at hnew
  simp [enter, leave, push, pop, Finset.erase_insert hnew]

private theorem restart_eq (h : Restored .empty s) : s.restart = s := by
  obtain ⟨hpath, hvisiting⟩ := h
  cases s
  cases hpath
  cases hvisiting
  rfl

end SearchState

open SearchState

private theorem searchEach_eq {call : String → SearchState → Option SearchState}
    {found : String → List (List String)}
    (hcall : ∀ name t, Restored s t → call name t = some (t.reportEach (found name)))
    (names : List String) :
    searchEach call names s = some (s.reportEach (names.flatMap found)) := by
  induction names generalizing s with
  | nil => rfl
  | cons name names ih =>
    have hfirst := hcall name s (.refl s)
    have hrest := ih (s := s.reportEach (found name)) fun next t ht =>
      hcall next t ((restored_reportEach s (found name)).trans ht)
    rw [searchEach, hfirst, Option.bind_some, hrest, reportEach, reportEach, reportEach,
      List.flatMap_cons, List.foldl_append]

/-- A call that may be nested deeper than there are fragments to enter ends. It reports all closing
paths and leaves the rest of the state alone. -/
private theorem searchCycles_eq (hs : s.Tracks) {depth : Nat}
    (hdepth : (unvisited fragments s).length < depth) :
    searchCycles fragments depth name s =
      some (s.reportEach (closingPaths (unentered fragments s.path) s.path name)) := by
  induction depth generalizing name s with
  | zero => exact absurd hdepth (Nat.not_lt_zero _)
  | succ depth ih =>
    rw [searchCycles, closingPaths_unentered]
    by_cases hname : name ∈ s.path
    · rw [if_pos (hs.mem_iff.mpr hname), if_pos hname, close_eq]
      rfl
    · have hnew : name ∉ s.visiting := mt hs.mem_iff.mp hname
      rw [if_neg hnew, if_neg hname]
      cases hfind : findFragment? fragments name with
      | none => rfl
      | some fragment =>
        have hinside (next : String) (t : SearchState) (ht : Restored (s.enter name) t) :
            searchCycles fragments depth next t = some (t.reportEach
              (closingPaths (unentered fragments (s.path ++ [name])) (s.path ++ [name]) next)) := by
          have htracks := (hs.enter hnew).of_restored ht
          have hpath : t.path = s.path ++ [name] := ht.path
          have hless := hs.length_unvisited_lt hnew hfind ht
          rw [ih htracks (by omega), hpath]
        dsimp only
        rw [searchEach_eq hinside, Option.map_some, reportEach_enter,
          leave_enter hnew (restored_reportEach s _)]

private theorem exists_searchFromAll {depth : Nat} (hdepth : fragments.length < depth) :
    ∃ s, searchFromAll fragments depth = some s ∧ s.reports = cyclePaths fragments := by
  have hcall (name : String) (t : SearchState) (ht : Restored .empty t) :
      searchCycles fragments depth name t.restart =
        some (t.reportEach (closingPaths fragments [] name)) := by
    have hless : (unvisited fragments t.restart).length < depth :=
      Nat.lt_of_le_of_lt (List.length_filter_le _ _) hdepth
    have hpath : t.restart.path = [] := rfl
    rw [searchCycles_eq (tracks_restart t) hless, hpath, unentered_nil, restart_eq ht]
  refine ⟨_, searchEach_eq hcall (fragments.map Fragment.name), ?_⟩
  rw [reports_reportEach, List.flatMap_map]
  rfl

end Reports

namespace FragmentCollection

/-- The search from all fragments of a collection ends, and its reports are the cycle paths. At the
entry of each of its calls the path has no name twice and the set holds the names on the path; a call
inside another has fewer fragments left to enter, so the calls are nested at most one deeper than there
are fragments and every call ends; and however a call ends, path and set are those of its entry. -/
theorem search_backtracks (collection : FragmentCollection) :
    (∃ s, searchFromAll collection.fragments (collection.fragments.length + 1) = some s ∧
      s.reports = cyclePaths collection.fragments) ∧
    ∀ depth name s, SearchReaches collection.fragments depth name s →
      s.path.Nodup ∧ s.visiting = s.path.toFinset ∧
      depth ≤ collection.fragments.length + 1 ∧
      (∀ next t, SearchCalls collection.fragments name s next t →
        (t.unvisited collection.fragments).length < (s.unvisited collection.fragments).length) ∧
      (∃ t, searchCycles collection.fragments ((s.unvisited collection.fragments).length + 1)
        name s = some t) ∧
      ∀ allowed t, searchCycles collection.fragments allowed name s = some t →
        t.path = s.path ∧ t.visiting = s.visiting := by
  refine ⟨exists_searchFromAll (Nat.lt_succ_self _), ?_⟩
  intro depth name s hreached
  have hs := hreached.tracks
  have hdepth := hreached.depth_le
  refine ⟨hs.nodup, hs.visiting, by omega, ?inside, ?ends, ?restored⟩
  case inside =>
    intro next t hcalls
    exact hcalls.length_unvisited_lt hs
  case ends => exact ⟨_, searchCycles_eq hs (Nat.lt_succ_self _)⟩
  case restored =>
    intro allowed t hsearch
    have hrestored := restored_searchCycles hsearch
    exact ⟨hrestored.path, hrestored.visiting⟩

/-- A fragment that spreads an undefined name and then goes round with another fragment. -/
def personAtAddress : FragmentCollection where
  fragments := [
    { name := "Person", typeCondition := "User", selection := ⟨[], ["Address", "Friends"], []⟩ },
    { name := "Friends", typeCondition := "User", selection := ⟨[], ["Person"], []⟩ }]
  nodup_names := by decide

/-- The search from `Person` has come back to it. -/
def aroundFriends : SearchState := (SearchState.empty.enter "Person").enter "Friends"

private theorem searchReaches_aroundFriends :
    SearchReaches personAtAddress.fragments 3 "Person" aroundFriends := by
  have hperson : SearchReaches personAtAddress.fragments 1 "Person" .empty := by
    have hnames : personAtAddress.fragments.map (·.name) = [] ++ "Person" :: ["Friends"] := rfl
    have hbefore : searchFromEach personAtAddress.fragments 0 [] .empty = some .empty := rfl
    exact .outermost hnames hbefore
  have hfriends : SearchCalls personAtAddress.fragments "Person" .empty "Friends"
      (SearchState.empty.enter "Person") := by
    have hbefore : searchEach (searchCycles personAtAddress.fragments 1) ["Address"]
        (SearchState.empty.enter "Person") = some (SearchState.empty.enter "Person") := rfl
    exact .spread (by decide) rfl rfl hbefore
  have hback : SearchCalls personAtAddress.fragments "Friends"
      (SearchState.empty.enter "Person") "Person" aroundFriends := by
    have hbefore : searchEach (searchCycles personAtAddress.fragments 0) []
        ((SearchState.empty.enter "Person").enter "Friends") = some aroundFriends := rfl
    exact .spread (by decide) rfl rfl hbefore
  exact .inner (.inner hperson hfriends) hback

theorem search_backtracks_personAtAddress :
    SearchReaches personAtAddress.fragments 3 "Person" aroundFriends ∧
    (∃ s, searchFromAll personAtAddress.fragments 3 = some s ∧
      s.reports = cyclePaths personAtAddress.fragments) ∧
    aroundFriends.path.Nodup ∧ aroundFriends.visiting = aroundFriends.path.toFinset ∧
    3 ≤ personAtAddress.fragments.length + 1 ∧
    (∀ next t, SearchCalls personAtAddress.fragments "Person" aroundFriends next t →
      (t.unvisited personAtAddress.fragments).length <
        (aroundFriends.unvisited personAtAddress.fragments).length) ∧
    (∃ t, searchCycles personAtAddress.fragments
      ((aroundFriends.unvisited personAtAddress.fragments).length + 1) "Person" aroundFriends =
        some t) ∧
    ∀ allowed t, searchCycles personAtAddress.fragments allowed "Person" aroundFriends = some t →
      t.path = aroundFriends.path ∧ t.visiting = aroundFriends.visiting := by
  obtain ⟨hall, hcalls⟩ := search_backtracks personAtAddress
  exact ⟨searchReaches_aroundFriends, hall,
    hcalls 3 "Person" aroundFriends searchReaches_aroundFriends⟩

end FragmentCollection
end ResultLayout
