import ResultLayout.Fragments.Cycle
import Mathlib.Data.List.Rotate
/-!
# Normal forms and rotations

The normal form of a path leaves its last name out of account: it turns the other names so that the
smallest comes first and repeats that name at the end. Names without repeats have one rotation that
starts at a given name, so two paths whose other names do not repeat have one normal form exactly
when these are rotations of each other.
-/
namespace ResultLayout

section Smallest

private theorem smallestName_mem (name : String) (names : List String) :
    smallestName name names ∈ name :: names := by
  induction names generalizing name with
  | nil => exact List.mem_singleton_self name
  | cons next names ih =>
    have hmem := ih (if next < name then next else name)
    change smallestName (if next < name then next else name) names ∈ _
    rcases List.mem_cons.mp hmem with heq | hrest
    · rw [heq]
      split <;> simp
    · exact List.mem_cons_of_mem _ (List.mem_cons_of_mem _ hrest)

private theorem smallestName_le {name other : String} {names : List String}
    (h : other ∈ name :: names) :
    smallestName name names ≤ other := by
  induction names generalizing name other with
  | nil =>
    rw [List.mem_singleton.mp h]
    exact String.le_refl name
  | cons next names ih =>
    change smallestName (if next < name then next else name) names ≤ other
    have hstart : smallestName (if next < name then next else name) names ≤
        if next < name then next else name := ih List.mem_cons_self
    have hboth : (if next < name then next else name) ≤ name ∧
        (if next < name then next else name) ≤ next := by
      split
      next hless => exact ⟨Std.le_of_lt hless, String.le_refl next⟩
      next hge => exact ⟨String.le_refl name, String.not_lt.mp hge⟩
    rcases List.mem_cons.mp h with rfl | h
    · exact String.le_trans hstart hboth.1
    · rcases List.mem_cons.mp h with rfl | h
      · exact String.le_trans hstart hboth.2
      · exact ih (List.mem_cons_of_mem _ h)

end Smallest

section Rotated

variable {α : Type} {xs ys : List α}

private theorem exists_append_of_isRotated (h : xs ~r ys) : ∃ left right, xs = left ++ right ∧
    ys = right ++ left := by
  obtain ⟨n, rfl⟩ := h
  refine ⟨xs.take (n % xs.length), xs.drop (n % xs.length), ?_, ?_⟩
  · rw [List.take_append_drop]
  · exact List.rotate_eq_drop_append_take_mod

/-- Names that do not repeat have one rotation with a given first name. -/
theorem eq_of_isRotated_of_head {a : α} (hnodup : (a :: xs).Nodup) (h : (a :: xs) ~r (a :: ys)) :
    xs = ys := by
  obtain ⟨left, right, hleft, hright⟩ := exists_append_of_isRotated h
  cases left with
  | nil =>
    rw [List.nil_append] at hleft
    rw [List.append_nil, ← hleft] at hright
    exact (List.cons.inj hright).2.symm
  | cons b left =>
    cases right with
    | nil =>
      rw [List.append_nil] at hleft
      rw [List.nil_append, ← hleft] at hright
      exact (List.cons.inj hright).2.symm
    | cons c right =>
      obtain ⟨rfl, hxs⟩ := List.cons.inj hleft
      obtain ⟨rfl, -⟩ := List.cons.inj hright
      rw [List.nodup_cons, hxs] at hnodup
      exact absurd (List.mem_append_right left List.mem_cons_self) hnodup.1

variable [BEq α] [LawfulBEq α]

private theorem exists_dropWhile_eq_cons {a : α} (h : a ∈ xs) :
    ∃ rest, xs.dropWhile (· != a) = a :: rest := by
  induction xs with
  | nil => cases h
  | cons x xs ih =>
    by_cases hx : x = a
    · subst hx
      exact ⟨xs, by simp⟩
    · obtain ⟨rest, hrest⟩ := ih ((List.mem_cons.mp h).resolve_left (Ne.symm hx))
      exact ⟨rest, by simp [hx, hrest]⟩

end Rotated

section Normal

variable {path other : List String}

private theorem exists_normalizeCycle_eq (hne : path.dropLast ≠ []) :
    ∃ least rest, normalizeCycle path = least :: rest ++ [least] ∧
      (least :: rest) ~r path.dropLast ∧ ∀ name ∈ path.dropLast, least ≤ name := by
  cases hround : path.dropLast with
  | nil => exact absurd hround hne
  | cons name names =>
    have hmem := smallestName_mem name names
    obtain ⟨rest, hrest⟩ := exists_dropWhile_eq_cons hmem
    refine ⟨smallestName name names,
      rest ++ (name :: names).takeWhile (· != smallestName name names), ?_, ?_, ?_⟩
    · simp only [normalizeCycle, hround, hrest, List.cons_append, List.append_assoc]
    · rw [← List.cons_append, ← hrest]
      refine List.isRotated_append.trans ?_
      rw [List.takeWhile_append_dropWhile]
    · intro other hother
      exact smallestName_le hother

private theorem normalizeCycle_eq_nil (hnil : path.dropLast = []) : normalizeCycle path = [] := by
  rw [normalizeCycle, hnil]

private theorem dropLast_normalizeCycle_isRotated (path : List String) :
    (normalizeCycle path).dropLast ~r path.dropLast := by
  by_cases hne : path.dropLast = []
  · rw [normalizeCycle_eq_nil hne, hne]
    exact List.IsRotated.refl []
  · obtain ⟨least, rest, hnormal, hturned, -⟩ := exists_normalizeCycle_eq hne
    rw [hnormal, List.dropLast_concat]
    exact hturned

/-- Paths of one normal form are rotations of each other, up to their last names. -/
theorem isRotated_of_normalizeCycle_eq (h : normalizeCycle path = normalizeCycle other) :
    path.dropLast ~r other.dropLast := by
  have hpath := (dropLast_normalizeCycle_isRotated path).symm
  rw [h] at hpath
  exact hpath.trans (dropLast_normalizeCycle_isRotated other)

theorem normalizeCycle_eq_iff_isRotated (hnodup : path.dropLast.Nodup) :
    normalizeCycle path = normalizeCycle other ↔ path.dropLast ~r other.dropLast := by
  constructor
  · exact isRotated_of_normalizeCycle_eq
  · intro hrotated
    by_cases hne : path.dropLast = []
    · rw [hne, List.isRotated_nil_iff'] at hrotated
      rw [normalizeCycle_eq_nil hne, normalizeCycle_eq_nil hrotated.symm]
    · have hne' : other.dropLast ≠ [] := by
        intro hnil
        rw [hnil, List.isRotated_nil_iff] at hrotated
        exact hne hrotated
      obtain ⟨least, rest, hnormal, hturned, hleast⟩ := exists_normalizeCycle_eq hne
      obtain ⟨least', rest', hnormal', hturned', hleast'⟩ := exists_normalizeCycle_eq hne'
      have hboth : (least :: rest) ~r (least' :: rest') :=
        hturned.trans (hrotated.trans hturned'.symm)
      have hmem : least ∈ other.dropLast :=
        (hturned.trans hrotated).mem_iff.mp List.mem_cons_self
      have hmem' : least' ∈ path.dropLast :=
        (hturned'.trans hrotated.symm).mem_iff.mp List.mem_cons_self
      obtain rfl : least = least' := String.le_antisymm (hleast least' hmem') (hleast' least hmem)
      rw [hnormal, hnormal', eq_of_isRotated_of_head (hturned.nodup_iff.mpr hnodup) hboth]

end Normal

section Closed

/-- A path of different names that is closed by the first of them. -/
def ClosedPath (path : List String) : Prop :=
  ∃ first rest, path = first :: rest ++ [first] ∧ (first :: rest).Nodup

variable {path other : List String}

private theorem ClosedPath.nodup_dropLast (h : ClosedPath path) : path.dropLast.Nodup := by
  obtain ⟨first, rest, rfl, hnodup⟩ := h
  rw [List.dropLast_concat]
  exact hnodup

private theorem ClosedPath.dropLast_ne_nil (h : ClosedPath path) : path.dropLast ≠ [] := by
  obtain ⟨first, rest, rfl, -⟩ := h
  rw [List.dropLast_concat]
  exact List.cons_ne_nil first rest

private theorem ClosedPath.mem_dropLast (h : ClosedPath path) {name : String}
    (hname : name ∈ path) :
    name ∈ path.dropLast := by
  obtain ⟨first, rest, rfl, -⟩ := h
  rw [List.dropLast_concat]
  rcases List.mem_append.mp hname with hround | hclosing
  · exact hround
  · rw [List.mem_singleton.mp hclosing]
    exact List.mem_cons_self

/-- A path has the normal form of a closed path exactly if it is a rotation of that path. The normal
form is itself a closed path, the rotation that starts at the smallest name, and its own normal
form. -/
theorem normalizeCycle_identifies_rotations (hpath : ClosedPath path) :
    (∀ other, normalizeCycle path = normalizeCycle other ↔ path.dropLast ~r other.dropLast) ∧
      ClosedPath (normalizeCycle path) ∧
      (normalizeCycle path).dropLast ~r path.dropLast ∧
      (∃ least, (normalizeCycle path).head? = some least ∧ ∀ name ∈ path, least ≤ name) ∧
      normalizeCycle (normalizeCycle path) = normalizeCycle path := by
  have hnodup := hpath.nodup_dropLast
  have hrotated := dropLast_normalizeCycle_isRotated path
  have hagain : (normalizeCycle path).dropLast.Nodup := hrotated.nodup_iff.mpr hnodup
  obtain ⟨least, rest, hnormal, hturned, hleast⟩ := exists_normalizeCycle_eq hpath.dropLast_ne_nil
  refine ⟨fun other => normalizeCycle_eq_iff_isRotated hnodup, ?closed, hrotated, ?starts, ?again⟩
  case closed => exact ⟨least, rest, hnormal, hturned.nodup_iff.mpr hnodup⟩
  case starts =>
    refine ⟨least, by rw [hnormal]; rfl, ?_⟩
    intro name hname
    exact hleast name (hpath.mem_dropLast hname)
  case again => exact (normalizeCycle_eq_iff_isRotated hagain).mpr hrotated

/-- A round of three fragments, entered at one that is not the smallest. -/
theorem normalizeCycle_three_fragments :
    ClosedPath ["Friends", "Person", "Address", "Friends"] ∧
      (normalizeCycle ["Friends", "Person", "Address", "Friends"] =
          normalizeCycle ["Person", "Address", "Friends", "Person"] ↔
        ["Friends", "Person", "Address"] ~r ["Person", "Address", "Friends"]) ∧
      ClosedPath (normalizeCycle ["Friends", "Person", "Address", "Friends"]) ∧
      (normalizeCycle ["Friends", "Person", "Address", "Friends"]).dropLast ~r
        ["Friends", "Person", "Address"] ∧
      (∃ least, (normalizeCycle ["Friends", "Person", "Address", "Friends"]).head? = some least ∧
        ∀ name ∈ ["Friends", "Person", "Address", "Friends"], least ≤ name) ∧
      normalizeCycle (normalizeCycle ["Friends", "Person", "Address", "Friends"]) =
        normalizeCycle ["Friends", "Person", "Address", "Friends"] := by
  have hpath : ClosedPath ["Friends", "Person", "Address", "Friends"] :=
    ⟨"Friends", ["Person", "Address"], rfl, by decide⟩
  obtain ⟨hsame, hnormal⟩ := normalizeCycle_identifies_rotations hpath
  exact ⟨hpath, hsame ["Person", "Address", "Friends", "Person"], hnormal⟩

end Closed

end ResultLayout
