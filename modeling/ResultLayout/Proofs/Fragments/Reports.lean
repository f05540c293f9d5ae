import ResultLayout.Proofs.Fragments.Cycles
/-!
# What is reported of a collection

A closing walk goes along spreads, enters no fragment twice and closes on a fragment that it has
entered: a lead-in, which may be empty, and then once around a round. The search takes exactly the
closing walks that can be taken, from every fragment on, and of those that enter the same names up to
rotation one is reported. So every report is a closing walk and no two reports are rotations of each
other, but a report starts with the name on which it closes only if it has no lead-in, and two reports
with different lead-ins can go around the same round.

A name from which spreads lead back to itself starts a closing walk, so it stands on a report.
-/
namespace ResultLayout
open Relation

/-- The entered names are all different, each of them spreads the next, and the last one spreads one
of them, on which the walk closes. -/
structure ClosingWalk (fragments : List Fragment) (entered : List String) (closing : String) :
    Prop where
  nodup : entered.Nodup
  closes : closing ∈ entered
  chain : (entered ++ [closing]).IsChain (SpreadsTo fragments)

namespace ClosingWalk

variable {fragments : List Fragment} {entered : List String} {closing : String}

private theorem exists_round (h : ClosingWalk fragments entered closing) :
    ∃ leadIn rest, entered = leadIn ++ closing :: rest ∧ SpreadRound fragments (closing :: rest) := by
  obtain ⟨leadIn, rest, hsplit⟩ := List.append_of_mem h.closes
  have hnodup := h.nodup
  have hchain := h.chain
  rw [hsplit] at hnodup
  rw [hsplit, List.append_assoc, List.isChain_append] at hchain
  refine ⟨leadIn, rest, hsplit, List.cons_ne_nil closing rest, ?_, ?_⟩
  · exact (List.nodup_append.mp hnodup).2.1
  · rw [Cycle.chain_coe_cons]
    exact hchain.2.1

private theorem head?_eq_getLast?_iff {leadIn rest : List String}
    (h : ClosingWalk fragments (leadIn ++ closing :: rest) closing) :
    (leadIn ++ closing :: rest ++ [closing]).head? =
      (leadIn ++ closing :: rest ++ [closing]).getLast? ↔ leadIn = [] := by
  rw [List.getLast?_concat]
  cases leadIn with
  | nil => simp
  | cons name leadIn =>
    have hne : name ≠ closing := by
      intro hsame
      have hnodup := h.nodup
      simp [hsame] at hnodup
    simp [hne]

private theorem spreads_of_mem (h : ClosingWalk fragments entered closing) {name : String}
    (hname : name ∈ entered) : ∃ next, SpreadsTo fragments name next := by
  obtain ⟨before, after, rfl⟩ := List.append_of_mem hname
  have hchain := h.chain
  rw [List.append_assoc, List.isChain_append] at hchain
  cases after with
  | nil => exact ⟨closing, List.rel_of_isChain_cons_cons hchain.2.1⟩
  | cons next after => exact ⟨next, List.rel_of_isChain_cons_cons hchain.2.1⟩

theorem registered (h : ClosingWalk fragments entered closing) {name : String}
    (hname : name ∈ entered ++ [closing]) : ∃ fragment ∈ fragments, fragment.name = name := by
  have hentered : name ∈ entered := by
    rcases List.mem_append.mp hname with hentered | hclosing
    · exact hentered
    · rw [List.mem_singleton.mp hclosing]
      exact h.closes
  obtain ⟨next, fragment, hmem, hsame, -⟩ := h.spreads_of_mem hentered
  exact ⟨fragment, hmem, hsame⟩

end ClosingWalk

section Search

variable {fragments : List Fragment} {report : List String}

private theorem mem_closingPaths_of_walk (hnodup : (fragments.map (·.name)).Nodup)
    {entered : List String} {closing : String} (hwalk : ClosingWalk fragments entered closing)
    {path rest : List String} {name : String} (hsplit : entered ++ [closing] = path ++ name :: rest) :
    entered ++ [closing] ∈ closingPaths (unentered fragments path) path name := by
  -- On what is left of the walk: at its end the search meets a name that is on the path.
  induction rest generalizing path name with
  | nil =>
    obtain ⟨rfl, hclosing⟩ := List.append_inj' hsplit rfl
    obtain rfl := List.singleton_inj.mp hclosing
    rw [closingPaths_unentered, if_pos hwalk.closes]
    exact List.mem_singleton_self _
  | cons next rest ih =>
    have hentered : entered = path ++ name :: (next :: rest).dropLast := by
      have hdrop := congrArg List.dropLast hsplit
      rwa [List.dropLast_concat, List.dropLast_append_cons] at hdrop
    have hname : name ∉ path := by
      have hdistinct := hwalk.nodup
      rw [hentered, List.nodup_append] at hdistinct
      exact fun hmem => hdistinct.2.2 name hmem name List.mem_cons_self rfl
    have hedge : SpreadsTo fragments name next := by
      have hchain := hwalk.chain
      rw [hsplit, List.isChain_append] at hchain
      exact List.rel_of_isChain_cons_cons hchain.2.1
    obtain ⟨fragment, hfind, hspread⟩ := exists_fragment_of_spreadsTo hnodup hedge
    have hbelow : entered ++ [closing] ∈
        closingPaths (unentered fragments (path ++ [name])) (path ++ [name]) next := by
      apply ih
      rw [List.append_assoc, List.singleton_append]
      exact hsplit
    rw [closingPaths_unentered, if_neg hname, hfind]
    exact List.mem_flatMap.mpr ⟨next, hspread, hbelow⟩

/-- The search from a name takes exactly the closing walks that start there. -/
private theorem mem_closingPaths_iff (hnodup : (fragments.map (·.name)).Nodup) {name : String} :
    report ∈ closingPaths fragments [] name ↔
      ∃ rest closing, report = name :: rest ++ [closing] ∧
        ClosingWalk fragments (name :: rest) closing := by
  constructor
  · intro h
    rw [← unentered_nil fragments] at h
    obtain ⟨entered, closing, hreport, hcloses, hgoes, hentered, hchain⟩ :=
      exists_closing_of_mem hnodup h
    have hwalk : ClosingWalk fragments entered closing :=
      ⟨hentered List.nodup_nil, hcloses, hreport ▸ hchain (List.IsChain.singleton name)⟩
    cases entered with
    | nil => cases hcloses
    | cons first rest =>
      have hfirst : name = first := by simpa [hreport] using hgoes
      subst hfirst
      exact ⟨rest, closing, hreport, hwalk⟩
  · rintro ⟨rest, closing, rfl, hwalk⟩
    have hsearched : name :: rest ++ [closing] ∈ closingPaths (unentered fragments []) [] name :=
      mem_closingPaths_of_walk hnodup hwalk rfl
    rw [unentered_nil] at hsearched
    exact hsearched

private theorem exists_walk_of_mem_cyclePaths (hnodup : (fragments.map (·.name)).Nodup)
    (h : report ∈ cyclePaths fragments) :
    ∃ entered closing, report = entered ++ [closing] ∧ ClosingWalk fragments entered closing := by
  have hfound := mem_firstOfEach_iff.mp h
  obtain ⟨fragment, -, hsearch⟩ := List.mem_flatMap.mp (List.mem_of_find?_eq_some hfound)
  obtain ⟨rest, closing, hreport, hwalk⟩ := (mem_closingPaths_iff hnodup).mp hsearch
  exact ⟨_, closing, hreport, hwalk⟩

private theorem exists_cyclePath_of_walk (hnodup : (fragments.map (·.name)).Nodup)
    {entered : List String} {closing : String} (hwalk : ClosingWalk fragments entered closing) :
    ∃ path ∈ cyclePaths fragments, path.dropLast ~r entered := by
  cases entered with
  | nil => cases hwalk.closes
  | cons name rest =>
    obtain ⟨fragment, hfragment, rfl⟩ :=
      hwalk.registered (List.mem_append_left [closing] List.mem_cons_self)
    have hsearch : fragment.name :: rest ++ [closing] ∈ closingPaths fragments [] fragment.name :=
      (mem_closingPaths_iff hnodup).mpr ⟨rest, closing, rfl, hwalk⟩
    obtain ⟨path, hpath, hnormal⟩ : ∃ path ∈ cyclePaths fragments,
        normalizeCycle path = normalizeCycle (fragment.name :: rest ++ [closing]) :=
      exists_mem_firstOfEach (List.mem_flatMap.mpr ⟨fragment, hfragment, hsearch⟩)
    have hrotated := isRotated_of_normalizeCycle_eq hnormal
    rw [List.dropLast_concat] at hrotated
    exact ⟨path, hpath, hrotated⟩

private theorem pairwise_cyclePaths (hnodup : (fragments.map (·.name)).Nodup) :
    (cyclePaths fragments).Pairwise fun a b => ¬ a.dropLast ~r b.dropLast := by
  refine (pairwise_firstOfEach normalizeCycle _).imp_of_mem ?_
  intro a b ha _ hne hrotated
  obtain ⟨entered, closing, rfl, hwalk⟩ := exists_walk_of_mem_cyclePaths hnodup ha
  have hentered : (entered ++ [closing]).dropLast.Nodup := by
    rw [List.dropLast_concat]
    exact hwalk.nodup
  exact hne ((normalizeCycle_eq_iff_isRotated hentered).mpr hrotated)

private theorem exists_walk_of_cyclic (hnodup : (fragments.map (·.name)).Nodup) {name : String}
    (hcyclic : TransGen (SpreadsTo fragments) name name) :
    ∃ rest closing, ClosingWalk fragments (name :: rest) closing := by
  have hfinds : closingPaths fragments [] name ≠ [] := by
    intro hquiet
    rw [← unentered_nil fragments] at hquiet
    have hends := (acc_of_quiet_search hnodup [] name hquiet).transGen
    have hback := transGen_swap.mpr hcyclic
    clear hcyclic hquiet
    induction hends with
    | intro name _ ih => exact ih name hback hback
  obtain ⟨report, hreport⟩ := List.exists_mem_of_ne_nil _ hfinds
  obtain ⟨rest, closing, -, hwalk⟩ := (mem_closingPaths_iff hnodup).mp hreport
  exact ⟨rest, closing, hwalk⟩

end Search

namespace FragmentCollection

variable {collection : FragmentCollection} {errors : List RegistryError}

private theorem exists_walk_of_spreadCycle (hbuild : collection.build = .error errors)
    {path : List String} (hpath : .spreadCycle path ∈ errors) :
    ∃ entered closing, path = entered ++ [closing] ∧
      ClosingWalk collection.fragments entered closing :=
  exists_walk_of_mem_cyclePaths collection.nodup_names ((spreadCycle_mem_errors hbuild).mp hpath)

private theorem exists_errors_of_mem_cyclePaths {path : List String}
    (hpath : path ∈ cyclePaths collection.fragments) :
    ∃ errors, collection.build = .error errors ∧ .spreadCycle path ∈ errors := by
  have hreported : .spreadCycle path ∈ collection.cycleErrors := List.mem_map_of_mem hpath
  have hmem := List.mem_append_left collection.undefinedSpreadErrors hreported
  exact ⟨_, build_eq_error_iff.mpr ⟨rfl, List.ne_nil_of_mem hmem⟩, hmem⟩

private theorem pairwise_spreadCycle (hbuild : collection.build = .error errors) :
    errors.Pairwise fun a b => ∀ p q, a = .spreadCycle p → b = .spreadCycle q →
      ¬ p.dropLast ~r q.dropLast := by
  obtain ⟨rfl, -⟩ := build_eq_error_iff.mp hbuild
  have hundefined : ∀ error ∈ collection.undefinedSpreadErrors, ∀ path,
      error ≠ .spreadCycle path := by
    intro error herror path hsame
    exact spreadCycle_notMem_undefinedSpreadErrors path (hsame ▸ herror)
  rw [List.pairwise_append]
  refine ⟨?_, ?_, ?_⟩
  · rw [cycleErrors, List.pairwise_map]
    refine (pairwise_cyclePaths collection.nodup_names).imp ?_
    intro a b hab p q hp hq
    rwa [← RegistryError.spreadCycle.inj hp, ← RegistryError.spreadCycle.inj hq]
  · exact List.pairwise_of_forall_mem_list fun a ha b _ p q hp => absurd hp (hundefined a ha p)
  · intro a _ b hb p q _ hq
    exact absurd hq (hundefined b hb q)

/-- The cycle errors of a collection are its closing walks, one for all that enter the same names up to
rotation. Such a walk leads into a round of fragments, each of which spreads the next, and it starts
and ends with one name exactly if it has no lead-in. -/
theorem build_reports_closing_walks (hbuild : collection.build = .error errors) :
    (∀ path, .spreadCycle path ∈ errors → ∃ leadIn first rest,
        path = leadIn ++ first :: rest ++ [first] ∧
        ClosingWalk collection.fragments (leadIn ++ first :: rest) first ∧
        SpreadRound collection.fragments (first :: rest) ∧
        (∀ name ∈ path, ∃ fragment ∈ collection.fragments, fragment.name = name) ∧
        (path.head? = path.getLast? ↔ leadIn = [])) ∧
      (errors.Pairwise fun a b => ∀ p q, a = .spreadCycle p → b = .spreadCycle q →
        ¬ p.dropLast ~r q.dropLast) ∧
      ∀ entered closing, ClosingWalk collection.fragments entered closing →
        ∃ path, .spreadCycle path ∈ errors ∧ path.dropLast ~r entered := by
  refine ⟨?walks, pairwise_spreadCycle hbuild, ?all⟩
  case walks =>
    intro path hpath
    obtain ⟨entered, first, rfl, hwalk⟩ := exists_walk_of_spreadCycle hbuild hpath
    obtain ⟨leadIn, rest, rfl, hround⟩ := hwalk.exists_round
    exact ⟨leadIn, first, rest, rfl, hwalk, hround, fun name => hwalk.registered,
      hwalk.head?_eq_getLast?_iff⟩
  case all =>
    intro entered closing hwalk
    obtain ⟨path, hpath, hrotated⟩ := exists_cyclePath_of_walk collection.nodup_names hwalk
    exact ⟨path, (spreadCycle_mem_errors hbuild).mpr hpath, hrotated⟩

/-- A fragment that spreads itself, and one that spreads it. -/
def friendsBehindPerson : FragmentCollection where
  fragments := [
    { name := "Person", typeCondition := "User", selection := ⟨[], ["Friends"], []⟩ },
    { name := "Friends", typeCondition := "User", selection := ⟨[], ["Friends"], []⟩ }]
  nodup_names := by decide

private theorem build_friendsBehindPerson : friendsBehindPerson.build = .error
    [.spreadCycle ["Person", "Friends", "Friends"], .spreadCycle ["Friends", "Friends"]] := by
  have hcycles : friendsBehindPerson.cycleErrors =
      [.spreadCycle ["Person", "Friends", "Friends"], .spreadCycle ["Friends", "Friends"]] := by
    decide +kernel
  have hundefined : friendsBehindPerson.undefinedSpreadErrors = [] := by decide +kernel
  rw [build_eq_error_iff, hcycles, hundefined]
  exact ⟨rfl, by decide⟩

theorem build_friendsBehindPerson_walks : ∃ errors, friendsBehindPerson.build = .error errors ∧
    (∀ path, .spreadCycle path ∈ errors → ∃ leadIn first rest,
      path = leadIn ++ first :: rest ++ [first] ∧
      ClosingWalk friendsBehindPerson.fragments (leadIn ++ first :: rest) first ∧
      SpreadRound friendsBehindPerson.fragments (first :: rest) ∧
      (∀ name ∈ path, ∃ fragment ∈ friendsBehindPerson.fragments, fragment.name = name) ∧
      (path.head? = path.getLast? ↔ leadIn = [])) ∧
    (errors.Pairwise fun a b => ∀ p q, a = .spreadCycle p → b = .spreadCycle q →
      ¬ p.dropLast ~r q.dropLast) ∧
    ∀ entered closing, ClosingWalk friendsBehindPerson.fragments entered closing →
      ∃ path, .spreadCycle path ∈ errors ∧ path.dropLast ~r entered :=
  ⟨_, build_friendsBehindPerson, build_reports_closing_walks build_friendsBehindPerson⟩

/-- One fragment makes a round by itself. It is reported twice, and the first report starts in front
of it. -/
theorem build_reports_lead_in :
    SpreadRound friendsBehindPerson.fragments ["Friends"] ∧
    friendsBehindPerson.build = .error
      [.spreadCycle ["Person", "Friends", "Friends"], .spreadCycle ["Friends", "Friends"]] ∧
    ∀ first rest, ["Person", "Friends", "Friends"] ≠ first :: rest ++ [first] := by
  refine ⟨⟨by decide, by decide, ?_⟩, build_friendsBehindPerson, ?_⟩
  · have hedge : SpreadsTo friendsBehindPerson.fragments "Friends" "Friends" :=
      ⟨_, List.mem_cons_of_mem _ List.mem_cons_self, rfl, .here List.mem_cons_self⟩
    rw [Cycle.chain_coe_cons]
    simpa using hedge
  · intro first rest hpath
    have hfirst : "Person" = first := (List.cons.inj hpath).1
    have hlast := congrArg List.getLast? hpath
    rw [List.getLast?_concat, ← hfirst] at hlast
    exact absurd hlast (by decide)

/-- A fragment that spreads itself, directly or through others, stands on a report, whichever of the
walks through it are reported. A report is a walk along spreads between fragments of the collection,
and of its names only the last occurs before, once. -/
theorem build_names_cyclic_fragments (collection : FragmentCollection) :
    (∀ name, TransGen (SpreadsTo collection.fragments) name name →
      ∃ errors path, collection.build = .error errors ∧ .spreadCycle path ∈ errors ∧ name ∈ path) ∧
    ∀ errors path, collection.build = .error errors → .spreadCycle path ∈ errors →
      ∃ entered closing, path = entered ++ [closing] ∧ entered.Nodup ∧ entered.count closing = 1 ∧
        path.IsChain (SpreadsTo collection.fragments) ∧
        ∀ name ∈ path, ∃ fragment ∈ collection.fragments, fragment.name = name := by
  constructor
  · intro name hcyclic
    obtain ⟨rest, closing, hwalk⟩ := exists_walk_of_cyclic collection.nodup_names hcyclic
    obtain ⟨path, hpath, hrotated⟩ := exists_cyclePath_of_walk collection.nodup_names hwalk
    obtain ⟨errors, herrors, hreported⟩ := exists_errors_of_mem_cyclePaths hpath
    have hname : name ∈ path.dropLast := hrotated.mem_iff.mpr List.mem_cons_self
    exact ⟨errors, path, herrors, hreported, List.mem_of_mem_dropLast hname⟩
  · intro errors path hbuild hpath
    obtain ⟨entered, closing, rfl, hwalk⟩ := exists_walk_of_spreadCycle hbuild hpath
    have honce := List.count_eq_one_of_mem hwalk.nodup hwalk.closes
    exact ⟨entered, closing, rfl, hwalk.nodup, honce, hwalk.chain, fun name => hwalk.registered⟩

/-- No report closes on `Person`, but one leads through it. -/
theorem build_names_person :
    TransGen (SpreadsTo selfSpreadingFriends.fragments) "Person" "Person" ∧
    ∃ errors path, selfSpreadingFriends.build = .error errors ∧ .spreadCycle path ∈ errors ∧
      "Person" ∈ path ∧
      ∃ entered closing, path = entered ++ [closing] ∧ entered.Nodup ∧ entered.count closing = 1 ∧
        path.IsChain (SpreadsTo selfSpreadingFriends.fragments) ∧
        ∀ name ∈ path, ∃ fragment ∈ selfSpreadingFriends.fragments, fragment.name = name := by
  have hcyclic : TransGen (SpreadsTo selfSpreadingFriends.fragments) "Person" "Person" := by
    have hround := spreadRound_friends.isChain
    simp only [List.cons_append, List.nil_append, List.isChain_cons_cons] at hround
    exact .head hround.1 (.single hround.2.1)
  obtain ⟨hnamed, hwalks⟩ := build_names_cyclic_fragments selfSpreadingFriends
  obtain ⟨errors, path, hbuild, hpath, hperson⟩ := hnamed "Person" hcyclic
  exact ⟨hcyclic, errors, path, hbuild, hpath, hperson, hwalks errors path hbuild hpath⟩

end FragmentCollection
end ResultLayout
