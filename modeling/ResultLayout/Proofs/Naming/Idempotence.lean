import ResultLayout.Proofs.Naming.Canonical
import ResultLayout.Proofs.Text.UpperCase
/-!
# Canonical names are canonical already

Naming an operation by its canonical name changes nothing. Capitalizing a capitalized name does
nothing, whatever its first character became, and the suffix of a kind does not start with a lowercase
character, so it may be the whole of a name.
-/
namespace ResultLayout
open Text

private theorem capitalizeChars_capitalizeChars (cs : List Char) :
    capitalizeChars (capitalizeChars cs) = capitalizeChars cs := by
  cases cs with
  | nil => rfl
  | cons c cs =>
    cases hc : isLowercase c with
    | false => simp [capitalizeChars, hc]
    | true =>
      rcases uppercase_eq_or_start c with hsame | ⟨first, rest, hupper, hfirst⟩
      · simp [capitalizeChars, hc, hsame]
      · simp [capitalizeChars, hc, hupper, hfirst]

private theorem capitalize_capitalize (name : String) :
    capitalize (capitalize name) = capitalize name := by
  rw [capitalize, capitalize, String.toList_ofList, capitalizeChars_capitalizeChars]

private theorem capitalizeChars_append {cs : List Char} (hne : cs ≠ [])
    (h : capitalizeChars cs = cs)
    (tail : List Char) : capitalizeChars (cs ++ tail) = cs ++ tail := by
  cases cs with
  | nil => exact absurd rfl hne
  | cons c cs =>
    cases hc : isLowercase c with
    | false => simp [capitalizeChars, hc]
    | true =>
      have hfixed : uppercase c ++ cs = [c] ++ cs := by simpa [capitalizeChars, hc] using h
      have hupper : uppercase c = [c] := List.append_cancel_right hfixed
      simp [capitalizeChars, hc, hupper]

namespace OperationKind

variable {kind : OperationKind} {base : String}

private theorem capitalizeChars_suffix (kind : OperationKind) :
    capitalizeChars kind.suffix.toList = kind.suffix.toList := by
  cases kind <;> decide +kernel

private theorem capitalize_appendTo (h : capitalize base = base) (semantic : Bool) :
    capitalize (kind.appendTo base semantic) = kind.appendTo base semantic := by
  have hbase : capitalizeChars base.toList = base.toList := by
    have := congrArg String.toList h
    rwa [capitalize, String.toList_ofList] at this
  unfold appendTo
  split
  · rw [capitalize, String.toList_append]
    by_cases hempty : base.toList = []
    · rw [hempty, List.nil_append, capitalizeChars_suffix, String.toList_eq_nil_iff.mp hempty,
        String.ofList_toList, String.empty_append]
    · rw [capitalizeChars_append hempty hbase, ← String.toList_append, String.ofList_toList]
  · exact h

private theorem appendTo_appendTo (kind : OperationKind) (base : String) (semantic : Bool) :
    kind.appendTo (kind.appendTo base semantic) semantic = kind.appendTo base semantic := by
  cases semantic with
  | false => rfl
  | true => exact appendTo_of_ends (kind.ends_appendTo base)

end OperationKind

namespace Operation

variable {operation again : Operation} {kind : OperationKind}

private theorem nameAs_false (operation : Operation) (kind : OperationKind) :
    operation.nameAs kind false = capitalize operation.name := rfl

private theorem nameAs_nameAs {semantic : Bool}
    (hname : again.name = operation.nameAs kind semantic) :
    again.nameAs kind semantic = again.name := by
  have hcapitalized : capitalize again.name = again.name := by
    rw [hname]
    exact OperationKind.capitalize_appendTo (capitalize_capitalize operation.name) semantic
  rw [nameAs, hcapitalized, hname, nameAs, OperationKind.appendTo_appendTo]

/-- An operation of a known kind has a canonical name, which is the capitalized name without semantic
naming, and every operation of the same kind with that name has it for its canonical name. -/
theorem canonicalName_idempotent (hkind : operation.kindName = kind.name) (semantic : Bool) :
    ∃ name, operation.canonicalName semantic = .ok name ∧
      (semantic = false → name = capitalize operation.name) ∧
      ∀ again : Operation, again.kindName = operation.kindName → again.name = name →
        again.canonicalName semantic = .ok name := by
  refine ⟨_, canonicalName_of_kindName hkind semantic, ?_, ?_⟩
  · rintro rfl
    exact nameAs_false operation kind
  · intro again hsame hname
    rw [canonicalName_of_kindName (hsame.trans hkind) semantic, nameAs_nameAs hname, hname]

/-- A mutation whose name starts with a ligature, which is two letters in upper case. -/
def ligatureMutation : Operation where
  name := "ﬁndUser"
  kindName := "mutation"

theorem canonicalName_ligature_idempotent :
    ligatureMutation.kindName = OperationKind.mutation.name ∧
    ligatureMutation.canonicalName true = .ok "FIndUserMutation" ∧
    { ligatureMutation with name := "FIndUserMutation" }.canonicalName true =
      .ok "FIndUserMutation" := by
  have hkind : ligatureMutation.kindName = OperationKind.mutation.name := rfl
  have hvalue : ligatureMutation.nameAs .mutation true = "FIndUserMutation" := by decide +kernel
  obtain ⟨name, hname, -, hagain⟩ := canonicalName_idempotent hkind true
  have hsame : name = "FIndUserMutation" := by
    rw [canonicalName_of_kindName hkind true, hvalue] at hname
    exact (Except.ok.inj hname).symm
  subst hsame
  exact ⟨hkind, hname, hagain _ rfl rfl⟩

end Operation
end ResultLayout
