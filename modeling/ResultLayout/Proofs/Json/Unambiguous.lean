import ResultLayout.Proofs.Json.Members
/-!
# The members of an object are unambiguous

A text is that of a string or of a value in one way only, and an object has one list of members.
Where a value ends, skipping it ends, whatever is said about it.
-/
namespace ResultLayout.Written
open Scan Reader

private theorem gap_cons_inj {gap gap' s s' : List Char} {c c' : Char} (hgap : Gap gap)
    (hgap' : Gap gap')
    (hc : isBlank c = false) (hc' : isBlank c' = false) (h : gap ++ c :: s = gap' ++ c' :: s') :
    gap = gap' ∧ c = c' ∧ s = s' := by
  have hdrop := dropBlanks_gap_cons hgap hc s
  rw [h, dropBlanks_gap_cons hgap' hc' s'] at hdrop
  obtain ⟨rfl, rfl⟩ := List.cons.inj hdrop
  exact ⟨List.append_cancel_right h, rfl, rfl⟩

private theorem jsonText_inj {gap gap' text text' s s' : List Char} (hgap : Gap gap)
    (hgap' : Gap gap')
    (htext : JsonText text) (htext' : JsonText text') (hs : EndsNumber s) (hs' : EndsNumber s')
    (h : gap ++ (text ++ s) = gap' ++ (text' ++ s')) : gap = gap' ∧ text = text' ∧ s = s' := by
  have hskip := skipValue_jsonText htext hgap hs
  rw [h, skipValue_jsonText htext' hgap' hs'] at hskip
  obtain rfl := Except.ok.inj hskip
  obtain ⟨c, text, rfl, hc, -⟩ := opens_of_jsonText htext
  obtain ⟨c', text', rfl, hc', -⟩ := opens_of_jsonText htext'
  obtain ⟨rfl, rfl, hbehind⟩ := gap_cons_inj hgap hgap' hc hc' h
  exact ⟨rfl, congrArg (c :: ·) (List.append_cancel_right hbehind), rfl⟩

private theorem stringText_inj {value value' : String} {text text' s s' : List Char}
    (htext : StringText value text) (htext' : StringText value' text')
    (h : text ++ s = text' ++ s') : value = value' ∧ text = text' ∧ s = s' := by
  obtain ⟨inner, rfl, hstring⟩ := string_stringText htext
  obtain ⟨inner', rfl, hstring'⟩ := string_stringText htext'
  have hinner : inner ++ s = inner' ++ s' := List.cons.inj h |>.2
  have hread := hstring s
  rw [hinner, hstring' s'] at hread
  obtain ⟨hvalue, rfl⟩ := Prod.mk.inj (Except.ok.inj hread)
  have htext : '"' :: inner = '"' :: inner' := congrArg ('"' :: ·) (List.append_cancel_right hinner)
  exact ⟨String.toList_inj.mp hvalue.symm, htext, rfl⟩

private theorem member_inj {member member' : NamedMember} {before before' s s' : List Char}
    (hbefore : Gap before) (hbefore' : Gap before') (hvalue : JsonText member.value)
    (hvalue' : JsonText member'.value) (hs : EndsNumber s) (hs' : EndsNumber s')
    (h : before ++ (member.text ++ s) = before' ++ (member'.text ++ s')) :
    member = member' ∧ s = s' := by
  obtain ⟨⟨key, beforeColon, behindColon, value, hbeforeColon, hbehindColon⟩, name, hkey⟩ := member
  obtain ⟨⟨key', beforeColon', behindColon', value', hbeforeColon', hbehindColon'⟩, name', hkey'⟩ :=
    member'
  dsimp only at hkey hkey' hvalue hvalue'
  simp only [MemberText.text, List.append_assoc, List.cons_append] at h
  obtain ⟨inner, rfl, -⟩ := string_stringText hkey
  obtain ⟨inner', rfl, -⟩ := string_stringText hkey'
  obtain ⟨rfl, -, hinner⟩ := gap_cons_inj hbefore hbefore' rfl rfl h
  obtain ⟨rfl, hkeys, hcolon⟩ := stringText_inj hkey hkey' (congrArg ('"' :: ·) hinner)
  obtain ⟨rfl, -, hbehind⟩ := gap_cons_inj hbeforeColon hbeforeColon' rfl rfl hcolon
  obtain ⟨rfl, rfl, rfl⟩ := jsonText_inj hbehindColon hbehindColon' hvalue hvalue' hs hs' hbehind
  cases hkeys
  exact ⟨rfl, rfl⟩

theorem exists_first {member : NamedMember} {members : List NamedMember} {inner : List Char}
    (h : CommaList ((member :: members).map fun member => member.text) inner) (rest : List Char) :
    ∃ before after c behind, Gap before ∧ Gap after ∧
      inner ++ '\x7d' :: rest = before ++ (member.text ++ (after ++ c :: behind)) ∧
      (c = '\x7d' ∧ members = [] ∨
        c = ',' ∧ ∃ inner', CommaList (members.map fun member => member.text) inner' ∧
          behind = inner' ++ '\x7d' :: rest) := by
  rw [List.map_cons] at h
  generalize htexts : members.map (fun member => member.text) = texts at h
  cases h with
  | @one before _ after hbefore hafter =>
    exact ⟨before, after, '\x7d', rest, hbefore, hafter, by simp,
      Or.inl ⟨rfl, List.map_eq_nil_iff.mp htexts⟩⟩
  | @more before _ after inner' _ hbefore hafter hinner' =>
    exact ⟨before, after, ',', inner' ++ '\x7d' :: rest, hbefore, hafter, by simp,
      Or.inr ⟨rfl, inner', htexts ▸ hinner', rfl⟩⟩

private theorem commaList_inj {members members' : List NamedMember}
    {inner inner' rest rest' : List Char}
    (hinner : CommaList (members.map fun member => member.text) inner)
    (hinner' : CommaList (members'.map fun member => member.text) inner')
    (hvalues : ∀ member ∈ members, JsonText member.value)
    (hvalues' : ∀ member ∈ members', JsonText member.value)
    (h : inner ++ '\x7d' :: rest = inner' ++ '\x7d' :: rest') : members = members' := by
  induction members generalizing members' inner inner' with
  | nil => cases hinner
  | cons member members ih =>
    cases members' with
    | nil => cases hinner'
    | cons member' members' =>
      obtain ⟨hvalue, hrest⟩ := List.forall_mem_cons.mp hvalues
      obtain ⟨hvalue', hrest'⟩ := List.forall_mem_cons.mp hvalues'
      obtain ⟨before, after, c, behind, hbefore, hafter, htext, hend⟩ := exists_first hinner rest
      obtain ⟨before', after', c', behind', hbefore', hafter', htext', hend'⟩ :=
        exists_first hinner' rest'
      have hc : c = ',' ∨ c = ']' ∨ c = '\x7d' :=
        hend.elim (fun hend => Or.inr (Or.inr hend.1)) fun hend => Or.inl hend.1
      have hc' : c' = ',' ∨ c' = ']' ∨ c' = '\x7d' :=
        hend'.elim (fun hend => Or.inr (Or.inr hend.1)) fun hend => Or.inl hend.1
      rw [htext, htext'] at h
      obtain ⟨rfl, hbehind⟩ := member_inj hbefore hbefore' hvalue hvalue'
        (endsNumber_gap_cons hafter hc behind) (endsNumber_gap_cons hafter' hc' behind') h
      have hblank : isBlank c = false := by rcases hc with rfl | rfl | rfl <;> rfl
      have hblank' : isBlank c' = false := by rcases hc' with rfl | rfl | rfl <;> rfl
      obtain ⟨-, rfl, rfl⟩ := gap_cons_inj hafter hafter' hblank hblank' hbehind
      rcases hend with ⟨rfl, rfl⟩ | ⟨rfl, others, hothers, rfl⟩
      · rcases hend' with ⟨-, rfl⟩ | ⟨hcomma, -⟩
        · rfl
        · exact absurd hcomma (by decide)
      · rcases hend' with ⟨hbrace, -⟩ | ⟨-, others', hothers', heq⟩
        · exact absurd hbrace (by decide)
        · rw [ih hothers hothers' hrest hrest' heq]

private theorem ne_of_commaList {members : List NamedMember} {gap inner rest rest' : List Char}
    (hgap : Gap gap) (hinner : CommaList (members.map fun member => member.text) inner) :
    gap ++ '\x7d' :: rest ≠ inner ++ '\x7d' :: rest' := by
  intro h
  obtain ⟨c, t, hc, -, hne⟩ := dropBlanks_commaList hinner (opens_members members) ('\x7d' :: rest')
  rw [← h, dropBlanks_gap_cons hgap rfl] at hc
  exact hne (List.cons.inj hc).1.symm

theorem items_inj {members members' : List NamedMember} {inner inner' rest rest' : List Char}
    (hinner : Items (members.map fun member => member.text) inner)
    (hinner' : Items (members'.map fun member => member.text) inner')
    (hvalues : ∀ member ∈ members, JsonText member.value)
    (hvalues' : ∀ member ∈ members', JsonText member.value)
    (h : inner ++ '\x7d' :: rest = inner' ++ '\x7d' :: rest') : members = members' := by
  generalize htexts : members.map (fun member => member.text) = texts at hinner
  generalize htexts' : members'.map (fun member => member.text) = texts' at hinner'
  cases hinner with
  | none hgap =>
    cases hinner' with
    | none => rw [List.map_eq_nil_iff.mp htexts, List.map_eq_nil_iff.mp htexts']
    | some hinner' => exact absurd h (ne_of_commaList hgap (htexts' ▸ hinner'))
  | some hinner =>
    cases hinner' with
    | none hgap' => exact absurd h.symm (ne_of_commaList hgap' (htexts ▸ hinner))
    | some hinner' => exact commaList_inj (htexts ▸ hinner) (htexts' ▸ hinner') hvalues hvalues' h

end ResultLayout.Written
