import ResultLayout.Proofs.Json.Scanning
/-!
# Skipping what the grammar writes

A value of any kind is skipped to its end, in whatever containers the walk stands and however deeply
the value nests.
-/
namespace ResultLayout.Scan
open Written

/-- The text starts with a character that is neither a blank nor closes a container. -/
def Opens (text : List Char) : Prop :=
  ∃ c s, text = c :: s ∧ isBlank c = false ∧ c ≠ ']' ∧ c ≠ '\x7d'

theorem dropBlanks_opens {gap text : List Char} (hgap : Gap gap) (h : Opens text) (s : List Char) :
    ∃ c rest, dropBlanks (gap ++ (text ++ s)) = c :: rest ∧ c ≠ ']' ∧ c ≠ '\x7d' := by
  obtain ⟨c, text, rfl, hc, hne⟩ := h
  exact ⟨c, text ++ s, dropBlanks_gap_cons hgap hc (text ++ s), hne⟩

theorem dropBlanks_commaList {texts : List (List Char)} {inner : List Char}
    (h : CommaList texts inner) (hopens : ∀ text ∈ texts.head?, Opens text) (s : List Char) :
    ∃ c rest, dropBlanks (inner ++ s) = c :: rest ∧ c ≠ ']' ∧ c ≠ '\x7d' := by
  cases h with
  | one hbefore hafter =>
    rw [List.append_assoc, List.append_assoc]
    exact dropBlanks_opens hbefore (hopens _ rfl) _
  | more hbefore hafter hrest =>
    rw [List.append_assoc, List.append_assoc]
    exact dropBlanks_opens hbefore (hopens _ rfl) _

theorem opens_of_key {member : MemberText} {inner : List Char} (h : member.key = '"' :: inner) :
    Opens member.text := by
  rw [MemberText.text, h]
  exact ⟨'"', _, rfl, by decide⟩

section Skip

private theorem isBlank_of_isDigit {c : Char} (hc : isDigit c = true) : isBlank c = false :=
  isBlank_eq_false_iff.mpr ⟨ne_of_isDigit hc rfl, ne_of_isDigit hc rfl, ne_of_isDigit hc rfl,
    ne_of_isDigit hc rfl⟩

private theorem skipString_rawString {text : List Char} (h : RawString text) (s : List Char) :
    ∃ inner, text = '"' :: inner ∧ skipString (inner ++ s) = .ok s := by
  obtain ⟨inner, hinner, rfl⟩ := h
  refine ⟨inner ++ ['"'], rfl, ?_⟩
  rw [List.append_assoc]
  exact skipString_rawChars hinner s

private theorem skipKey_append {gap : List Char} (hgap : Gap gap) {member : MemberText}
    (hkey : RawString member.key) (s : List Char) :
    skipKey (gap ++ (member.text ++ s)) = .ok (member.behindColon ++ (member.value ++ s)) := by
  obtain ⟨inner, hinner, hskip⟩ := skipString_rawString hkey
    (member.beforeColon ++ ':' :: (member.behindColon ++ (member.value ++ s)))
  have htext : member.text ++ s = '"' :: (inner ++
      (member.beforeColon ++ ':' :: (member.behindColon ++ (member.value ++ s)))) := by
    simp only [MemberText.text, hinner, List.cons_append, List.append_assoc]
  rw [htext, skipKey, dropBlanks_gap_cons hgap rfl]
  simp only [if_true, hskip]
  exact colon_gap member.gap_beforeColon _

/-- Skips the next item of an open container. -/
def skipItem (container : Container) (around : List Container) (s : List Char) :
    Except Fault (List Char) :=
  match container with
  | .array => skipFrom .value (.array :: around) s
  | .object =>
    match skipKey s with
    | .error fault => .error fault
    | .ok rest => skipFrom .value (.object :: around) rest

variable {container : Container} {around : List Container} {gap s : List Char}

private theorem isBlank_closing (container : Container) : isBlank container.closing = false := by
  cases container <;> rfl

/-! How a walk goes on at the next token. -/

private theorem skipFrom_value {c : Char} {rest : List Char} (hs : dropBlanks s = c :: rest) :
    skipFrom .value around s =
      if c = '[' then skipFrom (.opened .array) around rest
      else if c = '\x7b' then skipFrom (.opened .object) around rest
      else
        match skipScalar (c :: rest) with
        | .error fault => .error fault
        | .ok rest => skipFrom .closed around rest := by
  rw [skipFrom]
  split
  next h => rw [hs] at h; cases h
  next h =>
    rw [hs] at h
    cases h
    congr 2
    split
    next hscalar => rw [hscalar]
    next hscalar => rw [hscalar]

private theorem skipFrom_opened {c : Char} {rest : List Char} (hs : dropBlanks s = c :: rest) :
    skipFrom (.opened container) around s =
      if c = container.closing then skipFrom .closed around rest
      else skipItem container around s := by
  cases container with
  | array =>
    rw [skipFrom]
    split
    next h => rw [hs] at h; cases h
    next h => rw [hs] at h; cases h; rfl
  | object =>
    rw [skipFrom]
    split
    next h => rw [hs] at h; cases h
    next h =>
      rw [hs] at h
      cases h
      congr 1
      rw [skipItem]
      split
      next hkey => rw [hkey]
      next hkey => rw [hkey]

private theorem skipFrom_closed {c : Char} {rest : List Char} (hs : dropBlanks s = c :: rest) :
    skipFrom .closed (container :: around) s =
      if c = container.closing then skipFrom .closed around rest
      else if c = ',' then skipItem container around rest
      else .error .malformed := by
  rw [skipFrom]
  split
  next h => rw [hs] at h; cases h
  next h =>
    rw [hs] at h
    cases h
    congr 2
    cases container with
    | array => rfl
    | object =>
      dsimp only
      rw [skipItem]
      split
      next hkey => rw [hkey]
      next hkey => rw [hkey]

private theorem skipFrom_closing (hgap : Gap gap) :
    skipFrom .closed (container :: around) (gap ++ container.closing :: s) =
      skipFrom .closed around s := by
  rw [skipFrom_closed (dropBlanks_gap_cons hgap (isBlank_closing container) s), if_pos rfl]

private theorem skipFrom_comma (hgap : Gap gap) :
    skipFrom .closed (container :: around) (gap ++ ',' :: s) = skipItem container around s := by
  have hne : ',' ≠ container.closing := by cases container <;> decide
  rw [skipFrom_closed (dropBlanks_gap_cons hgap rfl s), if_neg hne, if_pos rfl]

/-- The text is skipped as an item of an open container. -/
structure Skips (container : Container) (text : List Char) : Prop where
  opens : Opens text
  skip : ∀ (around : List Container) {gap s : List Char}, Gap gap → EndsNumber s →
    skipItem container around (gap ++ (text ++ s)) = skipFrom .closed (container :: around) s

private theorem skipItem_commaList {texts : List (List Char)} {inner : List Char}
    (h : CommaList texts inner) (htexts : ∀ text ∈ texts, Skips container text)
    (around : List Container) (s : List Char) :
    skipItem container around (inner ++ container.closing :: s) = skipFrom .closed around s := by
  have hends : container.closing = ']' ∨ container.closing = '\x7d' := by
    cases container
    · exact Or.inl rfl
    · exact Or.inr rfl
  induction h with
  | @one before text after hbefore hafter =>
    have hskip := (htexts text List.mem_cons_self).skip around hbefore
      (endsNumber_gap_cons hafter (Or.inr hends) s)
    rw [List.append_assoc, List.append_assoc, hskip, skipFrom_closing hafter]
  | @more before text after rest texts hbefore hafter hrest ih =>
    have hskip := (htexts text List.mem_cons_self).skip around hbefore
      (endsNumber_gap_cons hafter (Or.inl rfl) (rest ++ container.closing :: s))
    rw [List.append_assoc, List.append_assoc, List.append_assoc, List.cons_append, hskip,
      skipFrom_comma hafter]
    exact ih fun text h => htexts text (List.mem_cons_of_mem _ h)

private theorem skipFrom_items {texts : List (List Char)} {inner : List Char}
    (h : Items texts inner)
    (htexts : ∀ text ∈ texts, Skips container text) (around : List Container) (s : List Char) :
    skipFrom (.opened container) around (inner ++ container.closing :: s) =
      skipFrom .closed around s := by
  cases h with
  | none hgap =>
    rw [skipFrom_opened (dropBlanks_gap_cons hgap (isBlank_closing container) s), if_pos rfl]
  | some h =>
    obtain ⟨c, rest, hc, hbracket, hbrace⟩ := dropBlanks_commaList h
      (fun text htext => (htexts text (List.mem_of_head? htext)).opens) (container.closing :: s)
    have hne : c ≠ container.closing := by
      cases container
      · exact hbracket
      · exact hbrace
    rw [skipFrom_opened hc, if_neg hne, skipItem_commaList h htexts]

private theorem skipFrom_scalar {c : Char} {text : List Char} (hgap : Gap gap)
    (hc : isBlank c = false)
    (harray : c ≠ '[') (hobject : c ≠ '\x7b') (hscalar : skipScalar (c :: (text ++ s)) = .ok s) :
    skipFrom .value around (gap ++ (c :: text ++ s)) = skipFrom .closed around s := by
  rw [List.cons_append, skipFrom_value (dropBlanks_gap_cons hgap hc (text ++ s)), if_neg harray,
    if_neg hobject, hscalar]

private theorem skipScalar_number {text s : List Char} (h : NumberText text) (hs : EndsNumber s) :
    ∃ c rest, text = c :: rest ∧ (c = '-' ∨ isDigit c = true) ∧
      skipScalar (c :: (rest ++ s)) = .ok s := by
  obtain ⟨hsign, hwhole, hfraction, hexponent⟩ := h
  rename_i sign whole fraction exponent
  have hnumber := skipNumber_append hwhole hfraction hexponent hs
  rcases hsign with rfl | rfl
  · obtain ⟨d, ds, rfl, hd⟩ := exists_cons_of_wholeText hwhole
    refine ⟨d, ds ++ (fraction ++ exponent), rfl, Or.inr hd, ?_⟩
    rw [skipScalar, if_neg (ne_of_isDigit hd rfl), if_neg (ne_of_isDigit hd rfl),
      if_neg (ne_of_isDigit hd rfl), if_neg (ne_of_isDigit hd rfl), if_neg (ne_of_isDigit hd rfl),
      List.append_assoc, List.append_assoc]
    exact hnumber
  · refine ⟨'-', whole ++ (fraction ++ exponent), rfl, Or.inl rfl, ?_⟩
    rw [List.append_assoc, List.append_assoc]
    exact hnumber

theorem opens_of_jsonText {text : List Char} (h : JsonText text) : Opens text := by
  cases h with
  | null => exact ⟨_, _, rfl, by decide⟩
  | true => exact ⟨_, _, rfl, by decide⟩
  | false => exact ⟨_, _, rfl, by decide⟩
  | string h =>
    obtain ⟨inner, -, rfl⟩ := h
    exact ⟨_, _, rfl, by decide⟩
  | number h =>
    obtain ⟨c, rest, rfl, hc, -⟩ := skipScalar_number h (s := []) (by rintro _ ⟨⟩)
    refine ⟨c, rest, rfl, ?_⟩
    rcases hc with rfl | hc
    · decide
    · exact ⟨isBlank_of_isDigit hc, ne_of_isDigit hc rfl, ne_of_isDigit hc rfl⟩
  | array hitems h =>
    obtain ⟨inner, -, rfl⟩ := h
    exact ⟨_, _, rfl, by decide⟩
  | object hkeys hvalues h =>
    obtain ⟨inner, -, rfl⟩ := h
    exact ⟨_, _, rfl, by decide⟩

/-- A value of any kind is skipped up to what follows it. -/
private theorem skipFrom_jsonText {text : List Char} (h : JsonText text) :
    ∀ (around : List Container) {gap s : List Char}, Gap gap → EndsNumber s →
      skipFrom .value around (gap ++ (text ++ s)) = skipFrom .closed around s := by
  induction h with
  | null =>
    intro around gap s hgap hs
    exact skipFrom_scalar hgap rfl (by decide) (by decide) (word_append ['u', 'l', 'l'] s)
  | true =>
    intro around gap s hgap hs
    exact skipFrom_scalar hgap rfl (by decide) (by decide) (word_append ['r', 'u', 'e'] s)
  | false =>
    intro around gap s hgap hs
    exact skipFrom_scalar hgap rfl (by decide) (by decide) (word_append ['a', 'l', 's', 'e'] s)
  | string h =>
    intro around gap s hgap hs
    obtain ⟨inner, rfl, hskip⟩ := skipString_rawString h s
    exact skipFrom_scalar hgap rfl (by decide) (by decide) hskip
  | number h =>
    intro around gap s hgap hs
    obtain ⟨c, rest, rfl, hc, hskip⟩ := skipScalar_number h hs
    rcases hc with rfl | hc
    · exact skipFrom_scalar hgap rfl (by decide) (by decide) hskip
    · exact skipFrom_scalar hgap (isBlank_of_isDigit hc) (ne_of_isDigit hc rfl)
        (ne_of_isDigit hc rfl) hskip
  | array hitems h ih =>
    intro around gap s hgap hs
    obtain ⟨inner, hinner, rfl⟩ := h
    rw [List.cons_append, List.append_assoc,
      skipFrom_value (dropBlanks_gap_cons (c := '[') hgap rfl _), if_pos rfl]
    refine skipFrom_items hinner (fun text htext => ?_) around s
    exact ⟨opens_of_jsonText (hitems text htext),
      fun around gap s hgap hs => ih text htext _ hgap hs⟩
  | object hkeys hvalues h ih =>
    intro around gap s hgap hs
    obtain ⟨inner, hinner, rfl⟩ := h
    rw [List.cons_append, List.append_assoc,
      skipFrom_value (dropBlanks_gap_cons (c := '\x7b') hgap rfl _), if_neg (by decide), if_pos rfl]
    refine skipFrom_items hinner (fun text htext => ?_) around s
    obtain ⟨member, hmember, rfl⟩ := List.mem_map.mp htext
    constructor
    · obtain ⟨inner, -, hkey⟩ := hkeys member hmember
      exact opens_of_key hkey
    · intro around gap s hgap hs
      simp only [skipItem, skipKey_append hgap (hkeys member hmember)]
      exact ih member hmember _ member.gap_behindColon hs

theorem skipValue_jsonText {text : List Char} (h : JsonText text) (hgap : Gap gap)
    (hs : EndsNumber s) : skipValue (gap ++ (text ++ s)) = .ok s := by
  rw [skipValue, skipFrom_jsonText h [] hgap hs, skipFrom]

end Skip

end ResultLayout.Scan
