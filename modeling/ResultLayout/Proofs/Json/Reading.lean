import ResultLayout.Json.Depth
import ResultLayout.Proofs.Json.Skipping
/-!
# Reading what the grammar writes

A reader reads a text if it gives the value of the text wherever the text stands, and leaves what
follows. The readers of strings, key words and arrays read all texts that the grammar has for them.
-/
namespace ResultLayout.Reader
open Scan Written

variable {α β : Type}

/-- The reader gives the value and takes exactly the text, whatever follows it. -/
structure Reads (reader : Reader α) (a : α) (text : List Char) : Prop where
  opens : Opens text
  read : ∀ {gap : List Char}, Gap gap → ∀ s, reader.read (gap ++ (text ++ s)) = .ok (a, s)

theorem Reads.map {reader : Reader α} {a : α} {s : List Char} (h : reader.Reads a s) (f : α → β) :
    (reader.map f).Reads (f a) s where
  opens := h.opens
  read hgap rest := by
    simp only [Reader.map, h.read hgap]

theorem Reads.delay {reader : Unit → Reader α} {a : α} {s : List Char}
    (h : (reader ()).Reads a s) : (delay reader).Reads a s where
  opens := h.opens
  read hgap rest := h.read hgap rest

theorem Reads.read_cons {reader : Reader α} {a : α} {c : Char} {text : List Char}
    (h : reader.Reads a (c :: text)) (s : List Char) :
    reader.read (c :: (text ++ s)) = .ok (a, s) :=
  h.read gap_nil s

/-- It is enough to read the text from its first character on. -/
theorem reads_of_cons {reader : Reader α} {a : α} {c : Char} {text : List Char}
    (hc : isBlank c = false ∧ c ≠ ']' ∧ c ≠ '\x7d')
    (h : ∀ s rest, dropBlanks s = c :: (text ++ rest) → reader.read s = .ok (a, rest)) :
    reader.Reads a (c :: text) where
  opens := ⟨c, text, rfl, hc⟩
  read hgap rest := h _ rest (dropBlanks_gap_cons hgap hc.1 _)

section Scalars

theorem string_stringText {value : String} {text : List Char} (h : StringText value text) :
    ∃ inner, text = '"' :: inner ∧
      ∀ s, string [] (inner ++ s) = .ok (value.toList, s) := by
  obtain ⟨inner, hinner, rfl⟩ := h
  refine ⟨inner ++ ['"'], rfl, fun s => ?_⟩
  rw [List.append_assoc]
  exact string_charsText hinner [] s

theorem reads_text {value : String} {s : List Char} (h : StringText value s) :
    text.Reads value s := by
  obtain ⟨inner, rfl, hstring⟩ := string_stringText h
  refine reads_of_cons (by decide) fun s rest hs => ?_
  simp only [text, hs, if_true, hstring, String.ofList_toList]

theorem reads_flag {value : Bool} {s : List Char} (h : FlagText value s) :
    flag.Reads value s := by
  cases h with
  | true =>
    refine reads_of_cons (by decide) fun s rest hs => ?_
    simp only [flag, hs, if_true, keyWord, word_append ['r', 'u', 'e'] rest]
  | false =>
    refine reads_of_cons (by decide) fun s rest hs => ?_
    have hne : 'f' ≠ 't' := by decide
    simp only [flag, hs, if_neg hne, if_true, keyWord, word_append ['a', 'l', 's', 'e'] rest]

theorem reads_orNull {value : Option String} {s : List Char} (h : OptionText value s) :
    (orNull text).Reads value s := by
  cases h with
  | null =>
    refine reads_of_cons (by decide) fun s rest hs => ?_
    simp only [orNull, hs, if_true, word_append ['u', 'l', 'l'] rest]
  | @string value s h =>
    obtain ⟨inner, rfl, -⟩ := string_stringText h
    refine reads_of_cons (by decide) fun s rest hs => ?_
    have hne : '"' ≠ 'n' := by decide
    simp only [orNull, hs, if_neg hne, (reads_text h).read_cons rest]

theorem reads_variant {value : String} {s : List Char} (h : StringText value s) (canOpen : Bool) :
    (variant canOpen).Reads value s := by
  obtain ⟨inner, rfl, -⟩ := string_stringText h
  refine reads_of_cons (by decide) fun s rest hs => ?_
  simp only [variant, hs, if_true, (reads_text h).read_cons rest]

end Scalars

section Arrays

private theorem moreItems_closing {item : Reader α} {gap : List Char} (hgap : Gap gap)
    (s : List Char) :
    moreItems item (gap ++ ']' :: s) = .ok ([], s) := by
  rw [moreItems]
  split
  next h => rw [dropBlanks_gap_cons hgap rfl] at h; cases h
  next h =>
    rw [dropBlanks_gap_cons hgap rfl] at h
    cases h
    rfl

private theorem moreItems_comma {item : Reader α} {gap s behind rest : List Char} {c : Char} {a : α}
    {as : List α} (hgap : Gap gap) (hs : ∃ t, dropBlanks s = c :: t) (hc : c ≠ ']')
    (hitem : item.read s = .ok (a, behind)) (hmore : moreItems item behind = .ok (as, rest)) :
    moreItems item (gap ++ ',' :: s) = .ok (a :: as, rest) := by
  obtain ⟨t, hs⟩ := hs
  rw [moreItems]
  split
  next h => rw [dropBlanks_gap_cons hgap rfl] at h; cases h
  next h =>
    rw [dropBlanks_gap_cons hgap rfl] at h
    cases h
    rw [if_neg (by decide), if_pos rfl]
    simp only [hs, if_neg hc]
    split
    next h => rw [hitem] at h; cases h
    next h =>
      rw [hitem] at h
      cases h
      simp only [hmore]

theorem opens_of_reads {item : Reader α} {as : List α} {texts : List (List Char)}
    (h : List.Forall₂ item.Reads as texts) : ∀ text ∈ texts.head?, Opens text := by
  cases h with
  | nil => rintro _ ⟨⟩
  | cons ha _ =>
    rintro _ ⟨⟩
    exact ha.opens

private theorem read_commaList {item : Reader α} {texts : List (List Char)} {inner : List Char}
    (h : CommaList texts inner) :
    ∀ {as : List α}, List.Forall₂ item.Reads as texts → ∀ s, ∃ a as' behind, as = a :: as' ∧
      item.read (inner ++ ']' :: s) = .ok (a, behind) ∧ moreItems item behind = .ok (as', s) := by
  induction h with
  | @one before text after hbefore hafter =>
    rintro _ (_ | ⟨ha, _ | _⟩) s
    refine ⟨_, [], after ++ ']' :: s, rfl, ?_, moreItems_closing hafter s⟩
    rw [List.append_assoc, List.append_assoc]
    exact ha.read hbefore _
  | @more before text after rest texts hbefore hafter hrest ih =>
    rintro _ (_ | ⟨ha, has⟩) s
    obtain ⟨c, t, hc, hne, -⟩ := dropBlanks_commaList hrest (opens_of_reads has) (']' :: s)
    obtain ⟨b, bs, behind, rfl, hitem, hmore⟩ := ih has s
    refine ⟨_, b :: bs, after ++ ',' :: (rest ++ ']' :: s), rfl, ?_,
      moreItems_comma hafter ⟨t, hc⟩ hne hitem hmore⟩
    rw [List.append_assoc, List.append_assoc, List.append_assoc, List.cons_append]
    exact ha.read hbefore _

private theorem items_of_forall₂ {item : Reader α} {as : List α} {texts : List (List Char)}
    {inner : List Char} (h : Items texts inner) (has : List.Forall₂ item.Reads as texts)
    (s : List Char) : items item (inner ++ ']' :: s) = .ok (as, s) := by
  cases h with
  | none hgap =>
    cases has
    simp only [items, dropBlanks_gap_cons hgap (c := ']') rfl, if_true]
  | some h =>
    obtain ⟨c, t, hc, hne, -⟩ := dropBlanks_commaList h (opens_of_reads has) (']' :: s)
    obtain ⟨a, as, behind, rfl, hitem, hmore⟩ := read_commaList h has s
    simp only [items, hc, if_neg hne, hitem, hmore]

theorem reads_list {item : Reader α} {ItemText : α → List Char → Prop}
    (hitem : ∀ {a text}, ItemText a text → item.Reads a text) (wanted : String) {as : List α}
    {s : List Char} (h : ArrayText ItemText as s) : (list wanted (some item)).Reads as s := by
  obtain ⟨texts, htexts, inner, hinner, rfl⟩ := h
  have has : List.Forall₂ item.Reads as texts := htexts.imp fun a text => hitem
  refine reads_of_cons (by decide) fun s rest hs => ?_
  have hitems := items_of_forall₂ hinner has rest
  simp only [list, hs, if_true, List.append_assoc, List.cons_append, List.nil_append, hitems]

end Arrays

section Objects

private theorem members_step {σ : Type} {next : σ → String → Except Fault (Reader σ)}
    {state state' : σ} {s s₁ s₂ s₃ s₄ s₅ key : List Char} {reader : Reader σ} {c : Char}
    (hquote : dropBlanks s = '"' :: s₁) (hkey : string [] s₁ = .ok (key, s₂))
    (hnext : next state (String.ofList key) = .ok reader) (hcolon : colon s₂ = .ok s₃)
    (hread : reader.read s₃ = .ok (state', s₄)) (hend : dropBlanks s₄ = c :: s₅) :
    members next state s =
      if c = '\x7d' then .ok (state', s₅)
      else if c = ',' then members next state' s₅
      else .error .malformed := by
  rw [members]
  split
  next h => rw [hquote] at h; cases h
  next h =>
    rw [hquote] at h
    cases h
    rw [if_pos rfl]
    split
    next h => rw [hkey] at h; cases h
    next h =>
      rw [hkey] at h
      cases h
      rw [hnext]
      dsimp only
      split
      next h => rw [hcolon] at h; cases h
      next h =>
        rw [hcolon] at h
        cases h
        split
        next h => rw [hread] at h; cases h
        next h =>
          rw [hread] at h
          cases h
          split
          next h => rw [hend] at h; cases h
          next h => rw [hend] at h; cases h; rfl

theorem members_text {σ : Type} {next : σ → String → Except Fault (Reader σ)} {state state' : σ}
    {member : NamedMember} {reader : Reader σ} {gap after : List Char} {c : Char} {rest : List Char}
    (hgap : Gap gap) (hafter : Gap after) (hc : isBlank c = false)
    (hnext : next state member.name = .ok reader)
    (hread : reader.read (member.behindColon ++ (member.value ++ (after ++ c :: rest))) =
      .ok (state', after ++ c :: rest)) :
    members next state (gap ++ (member.text ++ (after ++ c :: rest))) =
      if c = '\x7d' then .ok (state', rest)
      else if c = ',' then members next state' rest
      else .error .malformed := by
  obtain ⟨inner, hinner, hstring⟩ := string_stringText member.key_text
  have hquote : dropBlanks (gap ++ (member.text ++ (after ++ c :: rest))) =
      '"' :: (inner ++ (member.beforeColon ++ ':' ::
        (member.behindColon ++ (member.value ++ (after ++ c :: rest))))) := by
    rw [MemberText.text, hinner]
    simp only [List.cons_append, List.append_assoc]
    exact dropBlanks_gap_cons hgap rfl _
  rw [← String.ofList_toList (s := member.name)] at hnext
  exact members_step hquote (hstring _) hnext (colon_gap member.gap_beforeColon _) hread
    (dropBlanks_gap_cons hafter hc rest)

end Objects

end ResultLayout.Reader
