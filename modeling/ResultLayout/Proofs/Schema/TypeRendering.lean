import ResultLayout.Proofs.Schema.TypeGrammar
/-!
# Rendered types

The rendered text of a type is one of the texts of its grammar, the one without gaps: reading it gives
the type back, as long as its innermost name is a name. The grammar allows blanks in its gaps only, so
every text that is read is the rendered text of its type with blanks put in. Two texts are therefore
read as one type exactly if they differ in blanks at most.
-/
namespace ResultLayout
open Text

private theorem NameText.withoutBlanks_eq {cs : List Char} (h : NameText cs) :
    withoutBlanks cs = cs :=
  withoutBlanks_eq_self fun c hc => (h.namePart c hc).plain.1

namespace TypeRef

variable {type : TypeRef} {cs : List Char}

private theorem markText_mark (nullable : Bool) : MarkText nullable (mark nullable).toList := by
  cases nullable with
  | true => exact .absent
  | false => exact .present (by decide : Gap [])

private theorem withoutBlanks_markText {nullable : Bool} (h : MarkText nullable cs) :
    withoutBlanks cs = (mark nullable).toList := by
  cases h with
  | absent => rfl
  | present hgap =>
    rw [withoutBlanks_append, withoutBlanks_gap hgap, List.nil_append]
    decide

private theorem innermostName_of_typeText (h : TypeText type cs) :
    NameText type.innermostName.toList := by
  induction h with
  | named hname _ =>
    rw [innermostName, String.toList_ofList]
    exact hname
  | list _ _ _ _ ih => exact ih

private theorem typeText_render (hname : NameText type.innermostName.toList) :
    TypeText type type.render.toList := by
  induction type with
  | named name nullable =>
    have hnamed := TypeText.named hname (markText_mark nullable)
    rw [String.ofList_toList] at hnamed
    rw [render, String.toList_append]
    exact hnamed
  | list item nullable ih =>
    have hlist := TypeText.list (by decide : Gap []) (ih hname) (by decide : Gap [])
      (markText_mark nullable)
    rw [List.nil_append, List.append_nil] at hlist
    simp only [render, String.toList_append]
    exact hlist

private theorem withoutBlanks_typeText (h : TypeText type cs) :
    withoutBlanks cs = type.render.toList := by
  induction h with
  | @named name mark nullable hname hmark =>
    rw [withoutBlanks_append, hname.withoutBlanks_eq, withoutBlanks_markText hmark, render,
      String.toList_append, String.toList_ofList]
  | @list item nullable before text after mark hbefore _ hafter hmark ih =>
    have hbrackets : withoutBlanks ['['] = ['['] ∧ withoutBlanks [']'] = [']'] := by decide
    have hopen (rest : List Char) : withoutBlanks ('[' :: rest) = '[' :: withoutBlanks rest := by
      rw [← List.singleton_append, withoutBlanks_append, hbrackets.1, List.singleton_append]
    simp only [List.cons_append, hopen, withoutBlanks_append, withoutBlanks_gap hbefore, ih,
      withoutBlanks_gap hafter, hbrackets.2, withoutBlanks_markText hmark, render,
      String.toList_append, List.nil_append, List.append_nil]
    rfl

theorem parse_render (hname : NameText type.innermostName.toList) :
    parse type.render = .ok type := by
  rw [parse_eq_ok_iff]
  refine ⟨[], type.render.toList, [], ?_, by decide, by decide, typeText_render hname⟩
  rw [List.nil_append, List.append_nil]

theorem innermostName_of_parse {text : String} (h : parse text = .ok type) :
    NameText type.innermostName.toList := by
  obtain ⟨before, core, after, -, -, -, hcore⟩ := parse_eq_ok_iff.mp h
  exact innermostName_of_typeText hcore

private theorem render_of_parse {text : String} (h : parse text = .ok type) :
    type.render.toList = withoutBlanks text.toList := by
  obtain ⟨before, core, after, htext, hbefore, hafter, hcore⟩ := parse_eq_ok_iff.mp h
  rw [htext, withoutBlanks_append, withoutBlanks_append, withoutBlanks_gap hbefore,
    withoutBlanks_gap hafter, withoutBlanks_typeText hcore, List.nil_append, List.append_nil]

/-- Rendering and reading are inverse up to blanks: a type over a name is read back from its rendered
text, a text that is read differs from the rendered text of its type in blanks only, and so two texts
that are read have one type exactly if they are the same without their blanks. -/
theorem parse_render_up_to_blanks :
    (∀ type : TypeRef, NameText type.innermostName.toList → parse type.render = .ok type) ∧
      (∀ text type, parse text = .ok type → type.render.toList = withoutBlanks text.toList) ∧
      ∀ left right a b, parse left = .ok a → parse right = .ok b →
        (a = b ↔ withoutBlanks left.toList = withoutBlanks right.toList) := by
  refine ⟨fun type => parse_render, fun text type => render_of_parse, ?_⟩
  intro left right a b hleft hright
  rw [← render_of_parse hleft, ← render_of_parse hright, String.toList_inj]
  constructor
  · rintro rfl
    rfl
  · intro hrender
    have ha := parse_render (innermostName_of_parse hleft)
    have hb := parse_render (innermostName_of_parse hright)
    rw [hrender, hb] at ha
    exact (Except.ok.inj ha).symm

/-- The list of lists of users is rendered without the gaps of `usersText` and read back. Whether
`[[User]]!` has the same type is settled by the two texts without their blanks. -/
theorem parse_render_users :
    parse usersType.render = .ok usersType ∧
      usersType.render.toList = withoutBlanks usersText.toList ∧
      (usersType = .list (.list (.named "User" true) true) false ↔
        withoutBlanks usersText.toList = withoutBlanks "[[User]]!".toList) := by
  have husers : parse usersText = .ok usersType := parse_eq_ok_iff.mpr written_users
  obtain ⟨hread, hrender, hsame⟩ := parse_render_up_to_blanks
  refine ⟨hread usersType (by decide), hrender usersText usersType husers, ?_⟩
  apply hsame usersText "[[User]]!" _ _ husers
  exact hread (.list (.list (.named "User" true) true) false) (by decide)

end TypeRef
end ResultLayout
