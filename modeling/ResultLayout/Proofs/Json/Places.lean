import ResultLayout.Proofs.Json.Defects
/-!
# Where the objects of a record are read

A text leads a reader to an object if the object's opening brace is the last thing that the reader
takes from it: through arrays whose earlier items were read, and through other records whose earlier
members were. No reader on the way absorbs a fault of the object.
-/
namespace ResultLayout
open Scan Written Reader

variable {α β : Type}

section Arrays

variable {s : List Char} {fault : Fault}

private theorem moreItems_comma_fault {item : Reader α} {gap : List Char} (hgap : Gap gap)
    (hs : Begins s) (h : item.read s = .error fault ∨
      ∃ a behind, item.read s = .ok (a, behind) ∧ moreItems item behind = .error fault) :
    moreItems item (gap ++ ',' :: s) = .error fault := by
  obtain ⟨c, rest, hc, hne, -⟩ := hs
  rw [moreItems]
  split
  next hnil => rw [dropBlanks_gap_cons hgap rfl] at hnil; cases hnil
  next hcons =>
    rw [dropBlanks_gap_cons hgap rfl] at hcons
    cases hcons
    rw [if_neg (by decide), if_pos rfl]
    simp only [hc, if_neg hne]
    rcases h with hread | ⟨a, behind, hread, hmore⟩
    · split
      next hfault => rw [hread] at hfault; cases hfault; rfl
      next hok => rw [hread] at hok; cases hok
    · split
      next hfault => rw [hread] at hfault; cases hfault
      next hok => rw [hread] at hok; cases hok; simp only [hmore]

private theorem moreItems_fault {item : Reader α} {as : List α} {texts : List (List Char)}
    (has : List.Forall₂ item.Reads as texts) (hs : Begins s) (hread : item.read s = .error fault)
    {front after : List Char} (hfront : Leading texts front) (hafter : Gap after) :
    moreItems item (after ++ ',' :: (front ++ s)) = .error fault := by
  have hnext := begins_leading hfront (opens_of_reads has) hs
  refine moreItems_comma_fault hafter hnext ?_
  induction has generalizing front after with
  | nil =>
    cases hfront
    exact Or.inl hread
  | cons ha has ih =>
    cases hfront with
    | cons hbefore hafter' hrest =>
      have hnext := begins_leading hrest (opens_of_reads has) hs
      simp only [List.append_assoc, List.cons_append]
      exact Or.inr ⟨_, _, ha.read hbefore _,
        moreItems_comma_fault hafter' hnext (ih hrest hafter' hnext)⟩

private theorem items_fault {item : Reader α} {as : List α} {texts : List (List Char)}
    (has : List.Forall₂ item.Reads as texts) (hs : Begins s) (hread : item.read s = .error fault)
    {front : List Char} (hfront : Leading texts front) :
    items item (front ++ s) = .error fault := by
  obtain ⟨c, rest, hc, hne, -⟩ := begins_leading hfront (opens_of_reads has) hs
  simp only [items, hc, if_neg hne]
  cases has with
  | nil =>
    cases hfront
    rw [List.nil_append, hread]
  | cons ha has =>
    cases hfront with
    | cons hbefore hafter hrest =>
      simp only [List.append_assoc, List.cons_append, ha.read hbefore,
        moreItems_fault has hs hread hrest hafter]

/-- The text is read as the value of the entry. -/
def Entry.Accepts (entry : Entry α) (text : List Char) : Prop := ∃ set, entry.value.Reads set text

private theorem opens_of_accepts {entries : List (Entry α)} {texts : List (List Char)}
    (h : List.Forall₂ Entry.Accepts entries texts) : ∀ text ∈ texts.head?, Opens text := by
  cases h with
  | nil => rintro _ ⟨⟩
  | cons hentry _ =>
    rintro _ ⟨⟩
    obtain ⟨set, hset⟩ := hentry
    exact hset.opens

namespace RecordFormat

variable {format : RecordFormat α} {earlier later : List (Entry α)} {entry : Entry α}
  {texts : List (List Char)}

private theorem moreElements_fault (hearlier : List.Forall₂ Entry.Accepts earlier texts)
    (hs : Begins s) (hread : entry.value.read s = .error fault) {front after : List Char}
    (hfront : Leading texts front) (hafter : Gap after) (index : Nat) (value : α) :
    format.moreElements index (earlier ++ entry :: later) value (after ++ ',' :: (front ++ s)) =
      .error fault := by
  have hcomma : ',' ≠ ']' := by decide
  induction hearlier generalizing front after index value with
  | nil =>
    cases hfront
    obtain ⟨c, rest, hc, hne, -⟩ := hs
    simp only [List.nil_append, moreElements, dropBlanks_gap_cons (c := ',') hafter rfl,
      if_neg hcomma, if_true, hc, if_neg hne, hread]
  | cons hfirst hearlier ih =>
    obtain ⟨set, hset⟩ := hfirst
    cases hfront with
    | @cons before text after' rest _ hbefore hafter' hrest =>
      obtain ⟨c, t, hc, hne, -⟩ :=
        dropBlanks_opens hbefore hset.opens (after' ++ ',' :: (rest ++ s))
      simp only [List.append_assoc, List.cons_append, moreElements,
        dropBlanks_gap_cons (c := ',') hafter rfl, if_neg hcomma, if_true, hc, if_neg hne,
        hset.read hbefore, ih hrest hafter']

private theorem elements_fault (hentries : format.entries = earlier ++ entry :: later)
    (hearlier : List.Forall₂ Entry.Accepts earlier texts) (hs : Begins s)
    (hread : entry.value.read s = .error fault) {front : List Char} (hfront : Leading texts front) :
    format.elements (front ++ s) = .error fault := by
  obtain ⟨c, rest, hc, hne, -⟩ := begins_leading hfront (opens_of_accepts hearlier) hs
  simp only [elements, hc, if_neg hne, hentries]
  cases hearlier with
  | nil =>
    cases hfront
    simp only [List.nil_append, hread]
  | cons hfirst hearlier =>
    obtain ⟨set, hset⟩ := hfirst
    cases hfront with
    | cons hbefore hafter hrest =>
      simp only [List.append_assoc, List.cons_append, hset.read hbefore,
        moreElements_fault hearlier hs hread hrest hafter]

end RecordFormat

end Arrays

private theorem RecordFormat.Passes.object_fault {format : RecordFormat α}
    {members : List NamedMember}
    {draft : Draft α} (hmembers : format.Passes members format.empty draft)
    {front beforeKey keyText beforeColon s : List Char} {key : String} {entry : Entry α}
    (hfront : Leading (members.map fun member => member.text) front)
    (hentry : format.entry? key = some entry) (hnew : key ∉ draft.keys)
    (hbeforeKey : Gap beforeKey) (hkey : StringText key keyText) (hbeforeColon : Gap beforeColon)
    {fault : Fault} (hread : entry.value.read s = .error fault) :
    format.object (front ++ (beforeKey ++ (keyText ++ (beforeColon ++ ':' :: s)))) =
      .error fault := by
  obtain ⟨inner, rfl, hstring⟩ := string_stringText hkey
  let reader := entry.value.map fun set => (⟨set draft.value, key :: draft.keys⟩ : Draft α)
  have hquote : dropBlanks (beforeKey ++ ('"' :: inner ++ (beforeColon ++ ':' :: s))) =
      '"' :: (inner ++ (beforeColon ++ ':' :: s)) :=
    dropBlanks_gap_cons hbeforeKey rfl _
  have hnext : format.member draft (String.ofList key.toList) = .ok reader := by
    rw [String.ofList_toList, RecordFormat.member, ← RecordFormat.entry?, hentry]
    exact if_neg hnew
  have hvalue : reader.read s = .error fault := by simp only [reader, Reader.map, hread]
  have hobject := hmembers.object_leading hfront ⟨_, hquote⟩
  rw [members_fault hquote (hstring _)
    (Or.inr ⟨reader, s, hnext, colon_gap hbeforeColon s, hvalue⟩), RecordFormat.empty] at hobject
  rw [RecordFormat.object, hobject]

/-- The reader, on any text that starts with the given one, comes to an object of the format: the
text ends with the opening brace. Arrays and records on the way have read what stands before. -/
inductive ComesTo (target : RecordFormat β) : {α : Type} → Reader α → List Char → Prop
  | here {name : String} {gap : List Char} (hgap : Gap gap) :
    ComesTo target (record name (some target)) (gap ++ ['\x7b'])
  | member {α : Type} {name key : String} {format : RecordFormat α} {members : List NamedMember}
    {draft : Draft α} {entry : Entry α}
    {gap front beforeKey keyText beforeColon before : List Char} (hgap : Gap gap)
    (hmembers : format.Passes members format.empty draft)
    (hfront : Leading (members.map fun member => member.text) front)
    (hentry : format.entry? key = some entry) (hnew : key ∉ draft.keys)
    (hbeforeKey : Gap beforeKey) (hkey : StringText key keyText) (hbeforeColon : Gap beforeColon)
    (h : ComesTo target entry.value before) :
    ComesTo target (record name (some format))
      (gap ++ '\x7b' :: (front ++ (beforeKey ++ (keyText ++ (beforeColon ++ ':' :: before)))))
  | element {α : Type} {name : String} {format : RecordFormat α} {earlier later : List (Entry α)}
    {entry : Entry α} {texts : List (List Char)} {gap front before : List Char} (hgap : Gap gap)
    (hentries : format.entries = earlier ++ entry :: later)
    (hearlier : List.Forall₂ Entry.Accepts earlier texts) (hfront : Leading texts front)
    (h : ComesTo target entry.value before) :
    ComesTo target (record name (some format)) (gap ++ '[' :: (front ++ before))
  | item {α : Type} {wanted : String} {item : Reader α} {as : List α} {texts : List (List Char)}
    {gap front before : List Char} (hgap : Gap gap) (has : List.Forall₂ item.Reads as texts)
    (hfront : Leading texts front) (h : ComesTo target item before) :
    ComesTo target (list wanted (some item)) (gap ++ '[' :: (front ++ before))
  | map {α γ : Type} {reader : Reader α} {before : List Char} (f : α → γ)
    (h : ComesTo target reader before) : ComesTo target (reader.map f) before
  | delay {α : Type} {reader : Unit → Reader α} {before : List Char}
    (h : ComesTo target (reader ()) before) : ComesTo target (delay reader) before

namespace ComesTo

variable {target : RecordFormat β} {reader : Reader α} {before : List Char}

private theorem begins (h : ComesTo target reader before) (s : List Char) :
    Begins (before ++ s) := by
  have hopen : ∀ {gap : List Char} {c : Char} (rest : List Char), Gap gap → isBlank c = false →
      c ≠ ']' ∧ c ≠ '\x7d' → Begins (gap ++ c :: rest ++ s) := by
    intro gap c rest hgap hc hne
    rw [List.append_assoc, List.cons_append]
    exact ⟨c, rest ++ s, dropBlanks_gap_cons hgap hc _, hne⟩
  induction h with
  | here hgap => exact hopen _ hgap rfl (by decide)
  | member hgap => exact hopen _ hgap rfl (by decide)
  | element hgap => exact hopen _ hgap rfl (by decide)
  | item hgap => exact hopen _ hgap rfl (by decide)
  | map f h ih => exact ih
  | delay h ih => exact ih

theorem fault (h : ComesTo target reader before) {s : List Char} {fault : Fault}
    (hfault : target.object s = .error fault) : reader.read (before ++ s) = .error fault := by
  have hbrace : '\x7b' ≠ '[' := by decide
  induction h with
  | here hgap =>
    simp only [record, List.append_assoc, List.cons_append, List.nil_append,
      dropBlanks_gap_cons (c := '\x7b') hgap rfl, or_true, if_true, if_neg hbrace, hfault]
  | @member _ _ _ format members _ _ gap front beforeKey keyText beforeColon before
      hgap hmembers hfront hentry hnew hbeforeKey hkey hbeforeColon h ih =>
    have hobject := hmembers.object_fault hfront hentry hnew hbeforeKey hkey hbeforeColon ih
    simp only [record, List.append_assoc, List.cons_append,
      dropBlanks_gap_cons (c := '\x7b') hgap rfl, or_true, if_true, if_neg hbrace, hobject]
  | element hgap hentries hearlier hfront h ih =>
    simp only [record, List.append_assoc, List.cons_append,
      dropBlanks_gap_cons (c := '[') hgap rfl, true_or, if_true,
      RecordFormat.elements_fault hentries hearlier (h.begins s) ih hfront]
  | item hgap has hfront h ih =>
    simp only [list, List.append_assoc, List.cons_append,
      dropBlanks_gap_cons (c := '[') hgap rfl, if_true, items_fault has (h.begins s) ih hfront]
  | map f h ih => simp only [Reader.map, ih]
  | delay h ih => exact ih

end ComesTo
end ResultLayout
