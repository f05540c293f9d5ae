import ResultLayout.Naming.OperationName
import Mathlib.Data.List.Infix
/-!
# Collisions of canonical names

Under semantic naming the suffix of the kind is put behind a capitalized name that lacks it. This
keeps apart all names that end with the suffix, and all that do not, so two different names become
one only if one of them is the other with the suffix behind it. No suffix is the tail of another
one, so names of different kinds, which end with different suffixes, never become one.
-/
namespace ResultLayout

namespace OperationKind

/-- The name ends with the suffix of the kind. -/
def Ends (kind : OperationKind) (name : String) : Prop := ∃ stem, name = stem ++ kind.suffix

variable {kind other : OperationKind} {name base : String}

private theorem ends_iff_suffix : kind.Ends name ↔ kind.suffix.toList <:+ name.toList := by
  constructor
  · rintro ⟨stem, rfl⟩
    rw [String.toList_append]
    exact List.suffix_append stem.toList kind.suffix.toList
  · rintro ⟨stem, hstem⟩
    refine ⟨String.ofList stem, String.toList_inj.mp ?_⟩
    rw [String.toList_append, String.toList_ofList, hstem]

private theorem eq_of_suffix_suffix (h : kind.suffix.toList <:+ other.suffix.toList) :
    kind = other := by
  revert h
  cases kind <;> cases other <;> decide

private theorem eq_of_ends (h : kind.Ends name) (hother : other.Ends name) : kind = other := by
  rw [ends_iff_suffix] at h hother
  rcases List.suffix_or_suffix_of_suffix h hother with hsuffix | hsuffix
  · exact eq_of_suffix_suffix hsuffix
  · exact (eq_of_suffix_suffix hsuffix).symm

theorem appendTo_of_ends (h : kind.Ends base) : kind.appendTo base true = base := by
  rw [ends_iff_suffix, ← List.isSuffixOf_iff_suffix] at h
  simp [appendTo, h]

private theorem appendTo_of_not_ends (h : ¬ kind.Ends base) :
    kind.appendTo base true = base ++ kind.suffix := by
  rw [ends_iff_suffix, ← List.isSuffixOf_iff_suffix, Bool.not_eq_true] at h
  simp [appendTo, h]

theorem ends_appendTo (kind : OperationKind) (base : String) :
    kind.Ends (kind.appendTo base true) := by
  by_cases h : kind.Ends base
  · rwa [appendTo_of_ends h]
  · exact ⟨base, appendTo_of_not_ends h⟩

private theorem appendTo_eq_iff {otherBase : String} :
    kind.appendTo base true = kind.appendTo otherBase true ↔
      base = otherBase ∨ (¬ kind.Ends base ∧ otherBase = base ++ kind.suffix) ∨
        (¬ kind.Ends otherBase ∧ base = otherBase ++ kind.suffix) := by
  by_cases h : kind.Ends base <;> by_cases hother : kind.Ends otherBase
  · simp [appendTo_of_ends h, appendTo_of_ends hother, h, hother]
  · rw [appendTo_of_ends h, appendTo_of_not_ends hother]
    constructor
    · exact fun hsame => Or.inr (Or.inr ⟨hother, hsame⟩)
    · rintro (rfl | ⟨hnot, -⟩ | ⟨-, hsame⟩)
      · exact absurd h hother
      · exact absurd h hnot
      · exact hsame
  · rw [appendTo_of_not_ends h, appendTo_of_ends hother]
    constructor
    · exact fun hsame => Or.inr (Or.inl ⟨h, hsame.symm⟩)
    · rintro (rfl | ⟨-, hsame⟩ | ⟨hnot, -⟩)
      · exact absurd hother h
      · exact hsame.symm
      · exact absurd hother hnot
  · rw [appendTo_of_not_ends h, appendTo_of_not_ends hother, String.append_left_inj]
    constructor
    · exact Or.inl
    · rintro (hsame | ⟨-, rfl⟩ | ⟨-, rfl⟩)
      · exact hsame
      · exact absurd ⟨base, rfl⟩ hother
      · exact absurd ⟨otherBase, rfl⟩ h

private theorem eq_of_appendTo_eq_twice {stem : String}
    (h : kind.appendTo base true = stem ++ kind.suffix ++ kind.suffix) :
    base = stem ++ kind.suffix ++ kind.suffix := by
  by_cases hends : kind.Ends base
  · rwa [appendTo_of_ends hends] at h
  · rw [appendTo_of_not_ends hends, String.append_left_inj] at h
    exact absurd ⟨stem, h⟩ hends

end OperationKind

namespace Operation

variable {operation other : Operation} {kind otherKind : OperationKind}

theorem canonicalName_of_kindName (hkind : operation.kindName = kind.name) (semantic : Bool) :
    operation.canonicalName semantic = .ok (operation.nameAs kind semantic) := by
  rw [canonicalName, Operation.kind, kind?, hkind, OperationKind.ofName?_name]
  rfl

/-- Under semantic naming two operations of known kinds have one canonical name exactly if they are
of one kind and their capitalized names are equal, or one of these is the other with the suffix of
the kind, which this one lacks, behind it. A canonical name ends with the suffix, and twice only if
the capitalized name does. -/
theorem canonicalName_collides_iff (hkind : operation.kindName = kind.name)
    (hother : other.kindName = otherKind.name) :
    ∃ name otherName, operation.canonicalName true = .ok name ∧
      other.canonicalName true = .ok otherName ∧
      (name = otherName ↔ kind = otherKind ∧
        (capitalize operation.name = capitalize other.name ∨
          (¬ kind.Ends (capitalize operation.name) ∧
            capitalize other.name = capitalize operation.name ++ kind.suffix) ∨
          (¬ kind.Ends (capitalize other.name) ∧
            capitalize operation.name = capitalize other.name ++ kind.suffix))) ∧
      kind.Ends name ∧
      ∀ stem, name = stem ++ kind.suffix ++ kind.suffix →
        capitalize operation.name = stem ++ kind.suffix ++ kind.suffix := by
  refine ⟨_, _, canonicalName_of_kindName hkind true, canonicalName_of_kindName hother true, ?_,
    kind.ends_appendTo _, fun _ => OperationKind.eq_of_appendTo_eq_twice⟩
  constructor
  · intro hsame
    have hends : otherKind.Ends (operation.nameAs kind true) := by
      rw [hsame]
      exact otherKind.ends_appendTo _
    obtain rfl : kind = otherKind := OperationKind.eq_of_ends (kind.ends_appendTo _) hends
    exact ⟨rfl, OperationKind.appendTo_eq_iff.mp hsame⟩
  · rintro ⟨rfl, hnames⟩
    exact OperationKind.appendTo_eq_iff.mpr hnames

/-- A query whose name lacks the suffix, in small letters. -/
def shortlyNamed : Operation where
  name := "users"
  kindName := "query"

/-- A query whose name is the capitalized name of the other one with the suffix. -/
def fullyNamed : Operation where
  name := "UsersQuery"
  kindName := "query"

theorem canonicalName_users_collides :
    shortlyNamed.kindName = OperationKind.query.name ∧
    fullyNamed.kindName = OperationKind.query.name ∧
    ∃ name otherName, shortlyNamed.canonicalName true = .ok name ∧
      fullyNamed.canonicalName true = .ok otherName ∧ name = otherName ∧
      OperationKind.query.Ends name ∧
      ∀ stem, name = stem ++ "Query" ++ "Query" →
        capitalize "users" = stem ++ "Query" ++ "Query" := by
  have hshort : shortlyNamed.kindName = OperationKind.query.name := rfl
  have hfull : fullyNamed.kindName = OperationKind.query.name := rfl
  obtain ⟨name, otherName, hname, hother, hcollides, hends, htwice⟩ :=
    canonicalName_collides_iff hshort hfull
  have hlacks : ¬ OperationKind.query.Ends (capitalize shortlyNamed.name) := by
    rw [OperationKind.ends_iff_suffix]
    decide +kernel
  have hlonger : capitalize fullyNamed.name =
      capitalize shortlyNamed.name ++ OperationKind.query.suffix := by
    decide +kernel
  exact ⟨hshort, hfull, name, otherName, hname, hother,
    hcollides.mpr ⟨rfl, Or.inr (Or.inl ⟨hlacks, hlonger⟩)⟩, hends, htwice⟩

end Operation
end ResultLayout
