import ResultLayout.Proofs.Fragments.Rotation
import ResultLayout.Proofs.Fragments.Safety
import Mathlib.Data.List.Cycle
import Mathlib.Data.List.Find
/-!
# Reported cycles

The search reports a walk along spreads when it meets a name that it has entered on the way. From
every registered name it takes every walk that enters no name twice, so a round of fragments, each of
which spreads the next, is walked once around from each of them. Walks with one normal form count as
one report, and of these only the first is kept. Since the name at which a walk closes is not part of
the normal form, the walk that is kept for a round goes once around it but may close on any of its
names: on the first one only if the search meets that one before all others.
-/
namespace ResultLayout

section Lists

variable {α β : Type}

private theorem findSome?_eq_of_unique {f : α → Option β} {a : α} {xs : List α} (hmem : a ∈ xs)
    (hothers : ∀ x ∈ xs, x ≠ a → f x = none) : xs.findSome? f = f a := by
  induction xs with
  | nil => cases hmem
  | cons x xs ih =>
    have hrest := fun other hother => hothers other (List.mem_cons_of_mem x hother)
    rw [List.findSome?_cons]
    by_cases hx : x = a
    · subst hx
      cases hf : f x with
      | some b => rfl
      | none =>
        rw [List.findSome?_eq_none_iff]
        intro other hother
        by_cases hsame : other = x
        · rw [hsame, hf]
        · exact hrest other hother hsame
    · rw [hothers x List.mem_cons_self hx]
      exact ih ((List.mem_cons.mp hmem).resolve_left (Ne.symm hx)) hrest

private theorem findSome?_ite_eq_map {p : α → Prop} [DecidablePred p] {f : α → β} (xs : List α) :
    (xs.findSome? fun x => if p x then some (f x) else none) = (xs.find? (p ·)).map f := by
  induction xs with
  | nil => rfl
  | cons x xs ih => by_cases hx : p x <;> simp [hx, ih]

end Lists

section Search

variable {fragments : List Fragment} {path : List String} {name : String} {report : List String}

private theorem spreadsTo_iff_mem (hnodup : (fragments.map (·.name)).Nodup) {fragment : Fragment}
    (hfind : findFragment? fragments name = some fragment) {next : String} :
    SpreadsTo fragments name next ↔ next ∈ fragment.spreadNames := by
  obtain ⟨hmem, hname⟩ := (findFragment?_eq_some hnodup).mp hfind
  rw [Fragment.spreadNames, SelectionSet.mem_spreadNames]
  constructor
  · rintro ⟨source, hsource, hsame, hspreads⟩
    have hfound := (findFragment?_eq_some hnodup).mpr ⟨hsource, hsame⟩
    rw [Option.some.inj (hfind.symm.trans hfound)]
    exact hspreads
  · intro hspreads
    exact ⟨fragment, hmem, hname, hspreads⟩

theorem exists_fragment_of_spreadsTo (hnodup : (fragments.map (·.name)).Nodup) {next : String}
    (h : SpreadsTo fragments name next) :
    ∃ fragment, findFragment? fragments name = some fragment ∧ next ∈ fragment.spreadNames := by
  obtain ⟨fragment, hmem, hname, hspreads⟩ := h
  have hfind := (findFragment?_eq_some hnodup).mpr ⟨hmem, hname⟩
  exact ⟨fragment, hfind, SelectionSet.mem_spreadNames.mpr hspreads⟩

/-- What the search reports goes on from where the search is. It closes on a name that was entered,
it follows spreads if the search did, and it enters no name twice. -/
theorem exists_closing_of_mem (hnodup : (fragments.map (·.name)).Nodup)
    (h : report ∈ closingPaths (unentered fragments path) path name) :
    ∃ entered closing, report = entered ++ [closing] ∧ closing ∈ entered ∧
      path ++ [name] <+: report ∧ (path.Nodup → entered.Nodup) ∧
      ((path ++ [name]).IsChain (SpreadsTo fragments) → report.IsChain (SpreadsTo fragments)) := by
  induction path, name using @search_induction fragments with
  | onPath path name hname =>
    rw [closingPaths_unentered, if_pos hname, List.mem_singleton] at h
    subst h
    exact ⟨path, name, rfl, hname, List.prefix_rfl, id, id⟩
  | undefined path name hname hfind =>
    rw [closingPaths_unentered, if_neg hname, hfind] at h
    cases h
  | enter path name fragment hname hfind ih =>
    rw [closingPaths_unentered, if_neg hname, hfind] at h
    obtain ⟨next, hnext, hbelow⟩ := List.mem_flatMap.mp h
    obtain ⟨entered, closing, hreport, hcloses, hgoes, hnew, hchain⟩ := ih next hnext hbelow
    have hedge : SpreadsTo fragments name next := (spreadsTo_iff_mem hnodup hfind).mpr hnext
    refine ⟨entered, closing, hreport, hcloses, ?_, ?_, ?_⟩
    · exact (List.prefix_append _ [next]).trans hgoes
    · intro hpath
      apply hnew
      rw [List.nodup_append]
      refine ⟨hpath, List.nodup_singleton name, ?_⟩
      rintro other hother _ hsame rfl
      exact hname (List.mem_singleton.mp hsame ▸ hother)
    · intro hwalk
      apply hchain
      rw [List.isChain_append]
      refine ⟨hwalk, List.IsChain.singleton next, ?_⟩
      simpa using hedge

private theorem find?_closingPaths (hnodup : (fragments.map (·.name)).Nodup) {round : List String}
    (hround : round.Nodup) (hchain : round.IsChain (SpreadsTo fragments)) {lastName : String}
    (hlast : round.getLast? = some lastName) {last : Fragment}
    (hfound : findFragment? fragments lastName = some last) {rest : List String}
    (hsplit : path ++ name :: rest = round) :
    (closingPaths (unentered fragments path) path name).find? (·.dropLast = round) =
      (last.spreadNames.find? (· ∈ round)).map (round ++ [·]) := by
  induction rest generalizing path name with
  | nil =>
    have hname : name ∉ path := by
      rw [← hsplit, List.nodup_middle] at hround
      simpa using (List.nodup_cons.mp hround).1
    obtain rfl : name = lastName := by
      rw [← hsplit] at hlast
      simpa using hlast
    have hnext (next : String) :
        (closingPaths (unentered fragments round) round next).find? (·.dropLast = round) =
          if next ∈ round then some (round ++ [next]) else none := by
      by_cases hnext : next ∈ round
      · rw [closingPaths_unentered, if_pos hnext, if_pos hnext]
        simp
      · rw [if_neg hnext, List.find?_eq_none]
        intro report hreport hdrop
        obtain ⟨entered, closing, rfl, hcloses, hgoes, -, -⟩ := exists_closing_of_mem hnodup hreport
        obtain rfl : entered = round := by simpa using hdrop
        have hsame : next = closing := by simpa using hgoes
        exact hnext (hsame ▸ hcloses)
    rw [closingPaths_unentered, if_neg hname, hfound, List.find?_flatMap, hsplit]
    simp only [hnext]
    exact findSome?_ite_eq_map _
  | cons next rest ih =>
    have hname : name ∉ path := by
      rw [← hsplit, List.nodup_middle, List.nodup_cons, List.mem_append] at hround
      exact fun hmem => hround.1 (Or.inl hmem)
    have hedge : SpreadsTo fragments name next := by
      rw [← hsplit, List.isChain_append] at hchain
      exact List.rel_of_isChain_cons_cons hchain.2.1
    obtain ⟨fragment, hfind, hmem⟩ := exists_fragment_of_spreadsTo hnodup hedge
    rw [closingPaths_unentered, if_neg hname, hfind, List.find?_flatMap,
      findSome?_eq_of_unique hmem]
    · exact ih (by rw [List.append_assoc, List.singleton_append, hsplit])
    · intro other _ hother
      rw [List.find?_eq_none]
      intro report hreport hdrop
      obtain ⟨entered, closing, rfl, -, hgoes, -, -⟩ := exists_closing_of_mem hnodup hreport
      obtain rfl : entered = round := by simpa using hdrop
      rw [← hsplit] at hgoes
      exact hother (by simpa using hgoes)

end Search

section Rounds

variable {fragments : List Fragment} {round : List String}

/-- Names each of which spreads the next, and the last of which spreads the first; none stands there
twice. -/
structure SpreadRound (fragments : List Fragment) (round : List String) : Prop where
  ne_nil : round ≠ []
  nodup : round.Nodup
  chain : Cycle.Chain (SpreadsTo fragments) (round : Cycle String)

namespace SpreadRound

private theorem of_isRotated {other : List String} (h : SpreadRound fragments round)
    (hrotated : other ~r round) : SpreadRound fragments other where
  ne_nil := by
    rintro rfl
    exact h.ne_nil (List.isRotated_nil_iff'.mp hrotated).symm
  nodup := hrotated.nodup_iff.mpr h.nodup
  chain := by
    rw [Cycle.coe_eq_coe.mpr hrotated]
    exact h.chain

theorem isChain {first : String} {rest : List String} (h : SpreadRound fragments (first :: rest)) :
    ((first :: rest) ++ [first]).IsChain (SpreadsTo fragments) :=
  (Cycle.chain_coe_cons _ _ _).mp h.chain

private theorem exists_isRotated_cons (h : SpreadRound fragments round) {first : String}
    (hfirst : first ∈ round) :
    ∃ rest, (first :: rest) ~r round ∧ SpreadRound fragments (first :: rest) := by
  obtain ⟨left, right, rfl⟩ := List.append_of_mem hfirst
  have hrotated : (first :: right ++ left) ~r (left ++ first :: right) := List.isRotated_append
  exact ⟨right ++ left, hrotated, h.of_isRotated hrotated⟩

private theorem spreads_first {first last : String} {rest : List String}
    (h : SpreadRound fragments (first :: rest)) (hlast : (first :: rest).getLast? = some last) :
    SpreadsTo fragments last first :=
  (List.isChain_append.mp h.isChain).2.2 last hlast first rfl

theorem registered (h : SpreadRound fragments round) {name : String} (hname : name ∈ round) :
    name ∈ fragments.map (·.name) := by
  obtain ⟨rest, -, hround⟩ := h.exists_isRotated_cons hname
  have hedge : ∃ next, SpreadsTo fragments name next := by
    have hchain := hround.isChain
    cases rest with
    | nil => exact ⟨name, List.rel_of_isChain_cons_cons hchain⟩
    | cons next rest => exact ⟨next, List.rel_of_isChain_cons_cons hchain⟩
  obtain ⟨next, fragment, hmem, rfl, -⟩ := hedge
  exact List.mem_map_of_mem hmem

end SpreadRound

/-- The walk around a round that the search takes first: it starts at the name that was registered
first, and it closes on the first name of the round that the last fragment of the walk spreads. -/
structure FirstWalk (fragments : List Fragment) (round : List String) (first : String)
    (rest : List String) (closing : String) : Prop where
  rotated : (first :: rest) ~r round
  registered_first : (fragments.map (·.name)).find? (· ∈ round) = some first
  closes : ∃ last fragment, (first :: rest).getLast? = some last ∧
    findFragment? fragments last = some fragment ∧
    fragment.spreadNames.find? (· ∈ round) = some closing

private theorem SpreadRound.exists_firstWalk (hnodup : (fragments.map (·.name)).Nodup)
    (h : SpreadRound fragments round) :
    ∃ first rest closing, FirstWalk fragments round first rest closing := by
  obtain ⟨name, hname⟩ := List.exists_mem_of_ne_nil round h.ne_nil
  have hsome : ((fragments.map (·.name)).find? (· ∈ round)).isSome := by
    rw [List.find?_isSome]
    exact ⟨name, h.registered hname, decide_eq_true hname⟩
  obtain ⟨first, hfirst⟩ := Option.isSome_iff_exists.mp hsome
  have hmem : first ∈ round := by simpa using List.find?_some hfirst
  obtain ⟨rest, hrotated, hround⟩ := h.exists_isRotated_cons hmem
  obtain ⟨last, hlast⟩ : ∃ last, (first :: rest).getLast? = some last :=
    Option.isSome_iff_exists.mp (by simp)
  obtain ⟨fragment, hfind, hspread⟩ :=
    exists_fragment_of_spreadsTo hnodup (hround.spreads_first hlast)
  have hcloses : (fragment.spreadNames.find? (· ∈ round)).isSome := by
    rw [List.find?_isSome]
    exact ⟨first, hspread, decide_eq_true hmem⟩
  obtain ⟨closing, hclosing⟩ := Option.isSome_iff_exists.mp hcloses
  exact ⟨first, rest, closing, hrotated, hfirst, last, fragment, hlast, hfind, hclosing⟩

namespace FirstWalk

variable {first closing : String} {rest : List String}

private theorem find?_search (hnodup : (fragments.map (·.name)).Nodup)
    (hround : SpreadRound fragments round)
    (h : FirstWalk fragments round first rest closing) {path : List String}
    (hpath : path.dropLast ~r round) :
    (fragments.flatMap fun fragment => closingPaths fragments [] fragment.name).find?
      (normalizeCycle · == normalizeCycle path) = some (first :: rest ++ [closing]) := by
  have hfirst := hround.of_isRotated h.rotated
  obtain ⟨last, fragment, hlast, hfind, hcloses⟩ := h.closes
  obtain ⟨source, hsource, rfl⟩ : ∃ source,
      fragments.find? (fun fragment => decide (fragment.name ∈ round)) = some source ∧
        source.name = first := by
    have hregistered := h.registered_first
    rw [List.find?_map, Option.map_eq_some_iff] at hregistered
    exact hregistered
  have hkey {report entered : List String} {closing : String} (hreport : report = entered ++ [closing])
      (hentered : entered.Nodup) :
      (normalizeCycle report == normalizeCycle path) = true ↔ entered ~r round := by
    have hdrop : report.dropLast = entered := by rw [hreport, List.dropLast_concat]
    rw [beq_iff_eq, normalizeCycle_eq_iff_isRotated (hdrop ▸ hentered), hdrop]
    exact ⟨fun hrotated => hrotated.trans hpath, fun hrotated => hrotated.trans hpath.symm⟩
  rw [List.find?_flatMap, List.findSome?_eq_some_iff]
  obtain ⟨hmem, before, after, hsplit, hbefore⟩ := List.find?_eq_some_iff_append.mp hsource
  refine ⟨before, source, after, hsplit, ?_, ?_⟩
  · have hsame : (closingPaths fragments [] source.name).find?
        (normalizeCycle · == normalizeCycle path) =
          (closingPaths fragments [] source.name).find? (·.dropLast = source.name :: rest) := by
      apply List.find?_congr
      intro report hreport
      rw [← unentered_nil fragments] at hreport
      obtain ⟨entered, closing, rfl, hclosing, hgoes, hentered, -⟩ :=
        exists_closing_of_mem hnodup hreport
      rw [Bool.eq_iff_iff, hkey rfl (hentered List.nodup_nil), List.dropLast_concat,
        decide_eq_true_iff]
      cases entered with
      | nil => cases hclosing
      | cons name entered =>
        obtain rfl : source.name = name := by simpa using hgoes
        constructor
        · intro hrotated
          rw [eq_of_isRotated_of_head (hentered List.nodup_nil) (hrotated.trans h.rotated.symm)]
        · intro heq
          rw [heq]
          exact h.rotated
    have hmembers : (fun name : String => decide (name ∈ round)) =
        fun name => decide (name ∈ source.name :: rest) := by
      funext name
      rw [Bool.eq_iff_iff, decide_eq_true_iff, decide_eq_true_iff, h.rotated.mem_iff]
    rw [hsame, ← unentered_nil fragments, find?_closingPaths hnodup hfirst.nodup
      hfirst.isChain.left_of_append hlast hfind (List.nil_append _), ← hmembers, hcloses]
    rfl
  · intro other hother
    rw [List.find?_eq_none]
    intro report hreport hsame
    rw [← unentered_nil fragments] at hreport
    obtain ⟨entered, closing, rfl, hclosing, hgoes, hentered, -⟩ :=
      exists_closing_of_mem hnodup hreport
    have hrotated := (hkey rfl (hentered List.nodup_nil)).mp hsame
    cases entered with
    | nil => cases hclosing
    | cons name entered =>
      obtain rfl : other.name = name := by simpa using hgoes
      have hin : other.name ∈ round := hrotated.mem_iff.mp List.mem_cons_self
      simpa [hin] using hbefore other hother

private theorem mem_cyclePaths_iff (hnodup : (fragments.map (·.name)).Nodup)
    (hround : SpreadRound fragments round) (h : FirstWalk fragments round first rest closing)
    {path : List String} (hpath : path.dropLast ~r round) :
    path ∈ cyclePaths fragments ↔ path = first :: rest ++ [closing] := by
  rw [cyclePaths, mem_firstOfEach_iff, h.find?_search hnodup hround hpath, Option.some.injEq]
  exact eq_comm

end FirstWalk
end Rounds

namespace FragmentCollection

variable {collection : FragmentCollection}

theorem build_eq_error_iff {errors : List RegistryError} :
    collection.build = .error errors ↔
      errors = collection.cycleErrors ++ collection.undefinedSpreadErrors ∧ errors ≠ [] := by
  rw [build]
  split
  next hnone =>
    rw [hnone]
    simp
  next hsome =>
    rw [Except.error.injEq]
    constructor
    · rintro rfl
      exact ⟨rfl, hsome⟩
    · rintro ⟨rfl, -⟩
      rfl

theorem spreadCycle_notMem_undefinedSpreadErrors (path : List String) :
    .spreadCycle path ∉ collection.undefinedSpreadErrors := by
  simp [undefinedSpreadErrors]

theorem spreadCycle_mem_errors {errors : List RegistryError} (h : collection.build = .error errors)
    {path : List String} : .spreadCycle path ∈ errors ↔ path ∈ cyclePaths collection.fragments := by
  obtain ⟨rfl, -⟩ := build_eq_error_iff.mp h
  simp [spreadCycle_notMem_undefinedSpreadErrors, cycleErrors]

/-- Every round of spreads is reported by exactly one walk around it. The report closes on the name
at which it starts exactly if the fragment registered first is, of all the fragments of the round,
the one that its predecessor spreads first; otherwise it closes on another name of the round. -/
theorem build_reports_round (collection : FragmentCollection) {round : List String}
    (hround : SpreadRound collection.fragments round) :
    ∃ errors first rest closing, collection.build = .error errors ∧
      FirstWalk collection.fragments round first rest closing ∧
      (∀ path, path.dropLast ~r round →
        (.spreadCycle path ∈ errors ↔ path = first :: rest ++ [closing])) ∧
      ((∃ name others, .spreadCycle (name :: others ++ [name]) ∈ errors ∧ (name :: others) ~r round) ↔
        closing = first) := by
  obtain ⟨first, rest, closing, hwalk⟩ := hround.exists_firstWalk collection.nodup_names
  have hreported {path : List String} (hpath : path.dropLast ~r round) :
      path ∈ cyclePaths collection.fragments ↔ path = first :: rest ++ [closing] :=
    hwalk.mem_cyclePaths_iff collection.nodup_names hround hpath
  have hfirst : first :: rest ++ [closing] ∈ cyclePaths collection.fragments := by
    rw [hreported]
    rw [List.dropLast_concat]
    exact hwalk.rotated
  obtain ⟨errors, herrors⟩ : ∃ errors, collection.build = .error errors := by
    refine ⟨_, build_eq_error_iff.mpr ⟨rfl, ?_⟩⟩
    intro hnone
    have hcycles := (List.append_eq_nil_iff.mp hnone).1
    rw [cycleErrors, List.map_eq_nil_iff] at hcycles
    rw [hcycles] at hfirst
    cases hfirst
  refine ⟨errors, first, rest, closing, herrors, hwalk, ?_, ?_⟩
  · intro path hpath
    rw [spreadCycle_mem_errors herrors, hreported hpath]
  · constructor
    · rintro ⟨name, others, hmem, hrotated⟩
      rw [spreadCycle_mem_errors herrors,
        hreported (by rw [List.dropLast_concat]; exact hrotated)] at hmem
      obtain ⟨hsame, hclosing⟩ := List.append_inj' hmem rfl
      rw [← (List.cons.inj hsame).1, List.singleton_inj.mp hclosing]
    · rintro rfl
      exact ⟨closing, rest, (spreadCycle_mem_errors herrors).mpr hfirst, hwalk.rotated⟩

/-- Two fragments in a round, the second of which also spreads itself, and does so first. -/
def selfSpreadingFriends : FragmentCollection where
  fragments := [
    { name := "Person", typeCondition := "User", selection := ⟨[], ["Friends"], []⟩ },
    { name := "Friends", typeCondition := "User", selection := ⟨[], ["Friends", "Person"], []⟩ }]
  nodup_names := by decide

theorem spreadRound_friends : SpreadRound selfSpreadingFriends.fragments ["Person", "Friends"] := by
  have hedges : SpreadsTo selfSpreadingFriends.fragments "Person" "Friends" ∧
      SpreadsTo selfSpreadingFriends.fragments "Friends" "Person" := by
    refine ⟨⟨_, List.mem_cons_self, rfl, .here ?_⟩,
      ⟨_, List.mem_cons_of_mem _ List.mem_cons_self, rfl, .here ?_⟩⟩ <;> decide
  refine ⟨by decide, by decide, ?_⟩
  rw [Cycle.chain_coe_cons]
  simpa using hedges

theorem build_reports_friends : ∃ errors first rest closing,
    selfSpreadingFriends.build = .error errors ∧
    FirstWalk selfSpreadingFriends.fragments ["Person", "Friends"] first rest closing ∧
    (∀ path, path.dropLast ~r ["Person", "Friends"] →
      (.spreadCycle path ∈ errors ↔ path = first :: rest ++ [closing])) ∧
    ((∃ name others, .spreadCycle (name :: others ++ [name]) ∈ errors ∧
      (name :: others) ~r ["Person", "Friends"]) ↔ closing = first) :=
  build_reports_round selfSpreadingFriends spreadRound_friends

/-- The walk around the round closes on `Friends`, and no other report stands for the round. -/
theorem build_hides_friends :
    SpreadRound selfSpreadingFriends.fragments ["Person", "Friends"] ∧
    selfSpreadingFriends.build = .error
      [.spreadCycle ["Person", "Friends", "Friends"], .spreadCycle ["Friends", "Friends"]] ∧
    ∀ name others, .spreadCycle (name :: others ++ [name]) ∈
        [RegistryError.spreadCycle ["Person", "Friends", "Friends"],
          .spreadCycle ["Friends", "Friends"]] →
      ¬ (name :: others) ~r ["Person", "Friends"] := by
  have hcycles : selfSpreadingFriends.cycleErrors =
      [.spreadCycle ["Person", "Friends", "Friends"], .spreadCycle ["Friends", "Friends"]] := by
    decide +kernel
  have hundefined : selfSpreadingFriends.undefinedSpreadErrors = [] := by decide +kernel
  refine ⟨spreadRound_friends, ?_, ?_⟩
  · rw [build_eq_error_iff, hcycles, hundefined]
    exact ⟨rfl, by decide⟩
  · intro name others hmem hrotated
    rcases List.mem_cons.mp hmem with hpath | hmem
    · have hends := RegistryError.spreadCycle.inj hpath
      have hhead : name = "Person" := (List.cons.inj hends).1
      have hlast := congrArg List.getLast? hends
      rw [List.getLast?_concat, hhead] at hlast
      exact absurd hlast (by decide)
    · have hends := RegistryError.spreadCycle.inj (List.mem_singleton.mp hmem)
      have hshort := congrArg List.length hends
      have hlong := hrotated.perm.length_eq
      simp only [List.length_append, List.length_cons, List.length_nil] at hshort hlong
      omega

end FragmentCollection
end ResultLayout
