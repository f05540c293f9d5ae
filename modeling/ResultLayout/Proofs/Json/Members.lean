import ResultLayout.Proofs.Json.Determined
/-!
# The members of a record's object

Each member of an object takes the record read so far one step further: a member with the key of an
entry sets its value, any other member is passed over. What a format accepts is an object with such
members, or an array of what its entries read, so that records are determined if their entries are.
-/
namespace ResultLayout
open Scan Written Reader

namespace Written

/-- Texts with a comma behind each of them. -/
inductive Leading : List (List Char) → List Char → Prop
  | nil : Leading [] []
  | cons {before text after rest : List Char} {texts : List (List Char)} (hbefore : Gap before)
    (hafter : Gap after) (hrest : Leading texts rest) :
    Leading (text :: texts) (before ++ (text ++ (after ++ ',' :: rest)))

theorem CommaList.leading {texts : List (List Char)} {s : List Char} (h : CommaList texts s) :
    ∃ init text front before after, texts = init ++ [text] ∧ Leading init front ∧ Gap before ∧
      Gap after ∧ s = front ++ (before ++ (text ++ after)) := by
  induction h with
  | @one before text after hbefore hafter =>
    exact ⟨[], text, [], before, after, rfl, .nil, hbefore, hafter, rfl⟩
  | @more before text after rest texts hbefore hafter hrest ih =>
    obtain ⟨init, last, front, before', after', rfl, hfront, hbefore', hafter', rfl⟩ := ih
    exact ⟨text :: init, last, _, before', after', rfl, .cons hbefore hafter hfront, hbefore',
      hafter', by simp⟩

theorem opens_members (members : List NamedMember) :
    ∀ text ∈ (members.map fun member => member.text).head?, Opens text := by
  cases members with
  | nil => rintro _ ⟨⟩
  | cons member members =>
    rintro _ ⟨⟩
    obtain ⟨key, hkey, -⟩ := string_stringText member.key_text
    exact opens_of_key hkey

/-- The next token is none that closes a container. -/
def Begins (s : List Char) : Prop := ∃ c rest, dropBlanks s = c :: rest ∧ c ≠ ']' ∧ c ≠ '\x7d'

theorem begins_leading {texts : List (List Char)} {front s : List Char} (h : Leading texts front)
    (hopens : ∀ text ∈ texts.head?, Opens text) (hs : Begins s) : Begins (front ++ s) := by
  cases h with
  | nil => exact hs
  | cons hbefore hafter hrest =>
    rw [List.append_assoc, List.append_assoc]
    exact dropBlanks_opens hbefore (hopens _ rfl) _

end Written

variable {α : Type}

namespace RecordFormat

variable {format : RecordFormat α}

/-- Each entry of the record has a determined value. -/
def Determined (format : RecordFormat α) : Prop := ∀ entry ∈ format.entries, entry.value.Determined

/-- The entry of a key. -/
def entry? (format : RecordFormat α) (key : String) : Option (Entry α) :=
  format.entries.find? (·.key == key)

/-- The member takes the record read so far one step further. -/
inductive Takes (format : RecordFormat α) (member : NamedMember) : Draft α → Draft α → Prop
  | known {draft : Draft α} {entry : Entry α} {set : α → α}
    (hentry : format.entry? member.name = some entry) (hnew : member.name ∉ draft.keys)
    (hvalue : entry.value.Reads set member.value) :
    Takes format member draft ⟨set draft.value, member.name :: draft.keys⟩
  | unknown {draft : Draft α} (hentry : format.entry? member.name = none)
    (hvalue : JsonText member.value) : Takes format member draft draft

/-- The members take the record further, one after the other. -/
inductive Passes (format : RecordFormat α) : List NamedMember → Draft α → Draft α → Prop
  | nil (draft : Draft α) : Passes format [] draft draft
  | cons {member : NamedMember} {members : List NamedMember} {draft draft' draft'' : Draft α}
    (hmember : format.Takes member draft draft') (hmembers : Passes format members draft' draft'') :
    Passes format (member :: members) draft draft''

private theorem Takes.exists_reader {member : NamedMember} {draft draft' : Draft α}
    (h : format.Takes member draft draft') :
    ∃ reader, format.member draft member.name = .ok reader ∧ ∀ {gap s : List Char}, Gap gap →
      EndsNumber s → reader.read (gap ++ (member.value ++ s)) = .ok (draft', s) := by
  cases h with
  | @known entry set hentry hnew hvalue =>
    refine ⟨entry.value.map fun set => ⟨set draft.value, member.name :: draft.keys⟩, ?_,
      fun hgap _ => (hvalue.map _).read hgap _⟩
    rw [RecordFormat.member, ← entry?, hentry]
    exact if_neg hnew
  | unknown hentry hvalue =>
    refine ⟨ignored.map fun _ => draft, by rw [RecordFormat.member, ← entry?, hentry],
      fun hgap hs => ?_⟩
    simp only [Reader.map, ignored, skipValue_jsonText hvalue hgap hs]

theorem passes_append_iff {earlier later : List NamedMember} {draft draft'' : Draft α} :
    format.Passes (earlier ++ later) draft draft'' ↔
      ∃ draft', format.Passes earlier draft draft' ∧ format.Passes later draft' draft'' := by
  induction earlier generalizing draft with
  | nil =>
    refine ⟨fun h => ⟨draft, .nil draft, h⟩, ?_⟩
    rintro ⟨_, ⟨⟩, h⟩
    exact h
  | cons member earlier ih =>
    constructor
    · rintro (_ | ⟨hmember, hmembers⟩)
      obtain ⟨draft', hearlier, hlater⟩ := ih.mp hmembers
      exact ⟨draft', .cons hmember hearlier, hlater⟩
    · rintro ⟨draft', _ | ⟨hmember, hearlier⟩, hlater⟩
      exact .cons hmember (ih.mpr ⟨draft', hearlier, hlater⟩)

section Members

variable {members : List NamedMember} {draft draft' : Draft α}

private theorem Takes.members_comma {member : NamedMember} (h : format.Takes member draft draft')
    {gap after : List Char} (hgap : Gap gap) (hafter : Gap after) (s : List Char) :
    Reader.members format.member draft (gap ++ (member.text ++ (after ++ ',' :: s))) =
      Reader.members format.member draft' s := by
  obtain ⟨reader, hreader, hread⟩ := h.exists_reader
  have hend := endsNumber_gap_cons hafter (Or.inl rfl) s
  rw [members_text hgap hafter rfl hreader (hread member.gap_behindColon hend),
    if_neg (by decide), if_pos rfl]

private theorem Takes.members_brace {member : NamedMember} (h : format.Takes member draft draft')
    {gap after : List Char} (hgap : Gap gap) (hafter : Gap after) (s : List Char) :
    Reader.members format.member draft (gap ++ (member.text ++ (after ++ '\x7d' :: s))) =
      .ok (draft', s) := by
  obtain ⟨reader, hreader, hread⟩ := h.exists_reader
  have hend := endsNumber_gap_cons hafter (Or.inr (Or.inr rfl)) s
  rw [members_text hgap hafter rfl hreader (hread member.gap_behindColon hend), if_pos rfl]

/-- Behind members with a comma each, the object is read on from where they have taken it. -/
theorem Passes.members_leading (h : format.Passes members draft draft') {front : List Char}
    (hfront : Leading (members.map fun member => member.text) front) (s : List Char) :
    Reader.members format.member draft (front ++ s) = Reader.members format.member draft' s := by
  induction h generalizing front with
  | nil => cases hfront; rfl
  | cons hmember hmembers ih =>
    cases hfront with
    | cons hbefore hafter hrest =>
      simp only [List.append_assoc, List.cons_append]
      rw [hmember.members_comma hbefore hafter, ih hrest]

private theorem Passes.members_commaList (h : format.Passes members draft draft')
    {inner : List Char}
    (hinner : CommaList (members.map fun member => member.text) inner) (s : List Char) :
    Reader.members format.member draft (inner ++ '\x7d' :: s) = .ok (draft', s) := by
  obtain ⟨init, text, front, before, after, hsplit, hfront, hbefore, hafter, rfl⟩ := hinner.leading
  obtain ⟨others, last, rfl, rfl, hlast⟩ := List.map_eq_append_iff.mp hsplit
  obtain ⟨member, rfl, rfl⟩ := List.map_eq_singleton_iff.mp hlast
  obtain ⟨draft₁, hothers, hmember⟩ := passes_append_iff.mp h
  obtain _ | ⟨hmember, ⟨⟩⟩ := hmember
  simp only [List.append_assoc]
  rw [hothers.members_leading hfront, hmember.members_brace hbefore hafter]

private theorem exists_value (hformat : format.Determined) {name : String}
    {reader : Reader (Draft α)} {s rest : List Char} (hnext : format.member draft name = .ok reader)
    (hread : reader.read s = .ok (draft', rest)) :
    ∃ gap value, Gap gap ∧ JsonText value ∧ s = gap ++ (value ++ rest) ∧
      ∀ member : NamedMember, member.name = name → member.value = value →
        format.Takes member draft draft' := by
  rw [RecordFormat.member, ← entry?] at hnext
  split at hnext
  next hentry =>
    cases hnext
    simp only [Reader.map, ignored] at hread
    split at hread
    · cases hread
    next hskip =>
      split at hskip
      · cases hskip
      next hvalue =>
        cases hskip
        cases hread
        obtain ⟨gap, value, hgap, htext, rfl⟩ := jsonText_of_skipValue hvalue
        refine ⟨gap, value, hgap, htext, rfl, ?_⟩
        rintro member rfl rfl
        exact .unknown hentry htext
  next entry hentry =>
    split at hnext
    · cases hnext
    next hnew =>
      cases hnext
      simp only [Reader.map] at hread
      split at hread
      · cases hread
      next hset =>
        cases hread
        have hentries : entry ∈ format.entries := List.mem_of_find?_eq_some hentry
        obtain ⟨gap, value, hgap, hvalue, rfl, hreads⟩ := hformat entry hentries hset
        refine ⟨gap, value, hgap, hvalue, rfl, ?_⟩
        rintro member rfl rfl
        exact .known hentry hnew hreads

private theorem exists_takes (hformat : format.Determined) {s s₁ s₂ s₃ s₄ key : List Char}
    {reader : Reader (Draft α)} (hquote : dropBlanks s = '"' :: s₁)
    (hkey : string [] s₁ = .ok (key, s₂))
    (hnext : format.member draft (String.ofList key) = .ok reader) (hcolon : colon s₂ = .ok s₃)
    (hread : reader.read s₃ = .ok (draft', s₄)) :
    ∃ (member : NamedMember) (before : List Char), Gap before ∧ format.Takes member draft draft' ∧
      JsonText member.value ∧ s = before ++ (member.text ++ s₄) := by
  obtain ⟨before, hbefore, -, rfl⟩ := exists_gap hquote
  obtain ⟨keyText, hkeyText, hs₁⟩ := stringText_of_string hkey
  obtain ⟨beforeColon, hbeforeColon, rfl⟩ := gap_of_colon hcolon
  obtain ⟨behindColon, value, hbehindColon, hvalue, rfl, htakes⟩ := exists_value hformat hnext hread
  let member : NamedMember :=
    ⟨⟨keyText, beforeColon, behindColon, value, hbeforeColon, hbehindColon⟩, _, hkeyText⟩
  refine ⟨member, before, hbefore, htakes member rfl rfl, hvalue, ?_⟩
  simp only [member, hs₁, MemberText.text, List.append_assoc, List.cons_append]

private theorem exists_passes (hformat : format.Determined) {s rest : List Char}
    (h : Reader.members format.member draft s = .ok (draft', rest)) :
    ∃ (members : List NamedMember) (inner : List Char), format.Passes members draft draft' ∧
      (∀ member ∈ members, JsonText member.value) ∧
      CommaList (members.map fun member => member.text) inner ∧ s = inner ++ '\x7d' :: rest := by
  generalize hnext : format.member = next at h
  fun_induction Reader.members next draft s with
  | case1 => cases h
  | case2 => cases h
  | case3 => cases h
  | case4 => cases h
  | case5 => cases h
  | case6 => cases h
  | case7 draft s s₁ key s₂ hkey reader hreader s₃ hcolon draft' s₄ hread s₅ hquote hend =>
    cases h
    subst hnext
    obtain ⟨member, before, hbefore, hmember, hvalue, rfl⟩ :=
      exists_takes hformat hquote hkey hreader hcolon hread
    obtain ⟨after, hafter, -, rfl⟩ := exists_gap hend
    exact ⟨[member], _, .cons hmember (.nil draft'), List.forall_mem_singleton.mpr hvalue,
      .one hbefore hafter, by simp⟩
  | case8 draft s s₁ key s₂ hkey reader hreader s₃ hcolon draft₁ s₄ hread s₅ hquote hend _ ih =>
    subst hnext
    obtain ⟨member, before, hbefore, hmember, hvalue, rfl⟩ :=
      exists_takes hformat hquote hkey hreader hcolon hread
    obtain ⟨after, hafter, -, rfl⟩ := exists_gap hend
    obtain ⟨members, inner, hmembers, hvalues, hinner, rfl⟩ := ih h
    exact ⟨member :: members, _, .cons hmember hmembers,
      List.forall_mem_cons.mpr ⟨hvalue, hvalues⟩, .more hbefore hafter hinner, by simp⟩
  | case9 => cases h
  | case10 => cases h

end Members

section Object

/-- The draft of a record of which nothing has been read. -/
def empty (format : RecordFormat α) : Draft α := ⟨format.blank, []⟩

private theorem Passes.object_items {members : List NamedMember} {draft : Draft α}
    (h : format.Passes members format.empty draft) {inner : List Char}
    (hinner : Items (members.map fun member => member.text) inner) (s : List Char) :
    Reader.object format.member format.empty (inner ++ '\x7d' :: s) = .ok (draft, s) := by
  generalize htexts : members.map (fun member => member.text) = texts at hinner
  cases hinner with
  | none hgap =>
    obtain rfl := List.map_eq_nil_iff.mp htexts
    cases h
    simp only [Reader.object, dropBlanks_gap_cons (c := '\x7d') hgap rfl, if_true]
  | some hinner =>
    subst htexts
    obtain ⟨c, rest, hc, -, hne⟩ :=
      dropBlanks_commaList hinner (opens_members members) ('\x7d' :: s)
    simp only [Reader.object, hc, if_neg hne, h.members_commaList hinner]

theorem Passes.object_eq {members : List NamedMember} {draft : Draft α}
    (h : format.Passes members format.empty draft) {inner : List Char}
    (hinner : Items (members.map fun member => member.text) inner) (s : List Char) :
    format.object (inner ++ '\x7d' :: s) = (format.finish draft).map fun a => (a, s) := by
  have hobject := h.object_items hinner s
  rw [empty] at hobject
  rw [RecordFormat.object, hobject]
  cases hfinish : format.finish draft with
  | error fault => simp only [hfinish]; rfl
  | ok a => simp only [hfinish]; rfl

private theorem jsonText_members {members : List NamedMember} {inner : List Char}
    (hvalues : ∀ member ∈ members, JsonText member.value)
    (hinner : Items (members.map fun member => member.text) inner) :
    JsonText ('\x7b' :: (inner ++ ['\x7d'])) := by
  refine jsonText_object hinner fun text htext => ?_
  obtain ⟨member, hmember, rfl⟩ := List.mem_map.mp htext
  exact .member _ (rawString_of_stringText member.key_text) (hvalues member hmember)

theorem exists_passes_of_object (hformat : format.Determined) {s rest : List Char} {a : α}
    (h : format.object s = .ok (a, rest)) :
    ∃ (members : List NamedMember) (inner : List Char) (draft : Draft α),
      format.Passes members format.empty draft ∧ (∀ member ∈ members, JsonText member.value) ∧
      Items (members.map fun member => member.text) inner ∧ format.finish draft = .ok a ∧
      s = inner ++ '\x7d' :: rest := by
  unfold RecordFormat.object at h
  split at h
  · cases h
  next draft behind hobject =>
    split at h
    · cases h
    next hfinish =>
      cases h
      unfold Reader.object at hobject
      split at hobject
      · cases hobject
      next hblanks =>
        split at hobject
        next hbrace =>
          cases hobject
          obtain ⟨gap, hgap, -, rfl⟩ := exists_gap hblanks
          exact ⟨[], gap, _, .nil _, by rintro _ ⟨⟩, .none hgap, hfinish, by rw [hbrace]⟩
        · obtain ⟨members, inner, hmembers, hvalues, hinner, rfl⟩ := exists_passes hformat hobject
          exact ⟨members, inner, draft, hmembers, hvalues, .some hinner, hfinish, rfl⟩

end Object

section Array

private theorem finishShort_eq {index : Nat} {lacking : List (Entry α)} {value a : α}
    {s rest : List Char} (h : format.finishShort index lacking value s = .ok (a, rest)) :
    rest = s ∧ ∀ s, format.finishShort index lacking value s = .ok (a, s) := by
  unfold finishShort at h ⊢
  cases hlacking : firstLacking index lacking with
  | none =>
    rw [hlacking] at h
    cases h
    exact ⟨rfl, fun _ => rfl⟩
  | some length =>
    rw [hlacking] at h
    cases h

private theorem exists_texts_of_moreElements {entries : List (Entry α)}
    (hentries : ∀ entry ∈ entries, entry.value.Determined) {index : Nat} {value a : α}
    {s rest : List Char} (h : format.moreElements index entries value s = .ok (a, rest)) :
    ∃ texts more, s = more ++ ']' :: rest ∧ (∀ text ∈ texts, JsonText text) ∧
      (∀ {gap text}, Gap gap → CommaList (text :: texts) (gap ++ (text ++ more))) ∧
      ∀ s, format.moreElements index entries value (more ++ ']' :: s) = .ok (a, s) := by
  induction entries generalizing index value s with
  | nil =>
    simp only [moreElements] at h
    split at h
    · cases h
    next hblanks =>
      obtain ⟨after, hafter, -, rfl⟩ := exists_gap hblanks
      split at h
      next hbracket =>
        cases h
        refine ⟨[], after, by rw [hbracket], by rintro _ ⟨⟩, fun hgap => .one hgap hafter,
          fun s => ?_⟩
        simp only [moreElements, dropBlanks_gap_cons (c := ']') hafter rfl, if_true]
      · cases h
  | cons entry entries ih =>
    simp only [moreElements] at h
    split at h
    · cases h
    next hblanks =>
      obtain ⟨after, hafter, -, rfl⟩ := exists_gap hblanks
      split at h
      next hbracket =>
        obtain ⟨rfl, hfinish⟩ := finishShort_eq h
        refine ⟨[], after, by rw [hbracket], by rintro _ ⟨⟩, fun hgap => .one hgap hafter,
          fun s => ?_⟩
        simp only [moreElements, dropBlanks_gap_cons (c := ']') hafter rfl, if_true, hfinish]
      · split at h
        next hcomma =>
          split at h
          · cases h
          next hnext =>
            split at h
            · cases h
            next hbracket =>
              split at h
              · cases h
              next hread =>
                obtain ⟨before, text, hbefore, htext, rfl, hreads⟩ :=
                  hentries entry List.mem_cons_self hread
                obtain ⟨texts, more, rfl, htexts, hlist, hmore⟩ :=
                  ih (fun entry hentry => hentries entry (List.mem_cons_of_mem _ hentry)) h
                refine ⟨text :: texts, after ++ ',' :: (before ++ (text ++ more)), by simp [hcomma],
                  List.forall_mem_cons.mpr ⟨htext, htexts⟩,
                  fun hgap => .more hgap hafter (hlist hbefore), fun s => ?_⟩
                obtain ⟨c, t, hc, hne, -⟩ :=
                  dropBlanks_opens hbefore hreads.opens (more ++ ']' :: s)
                have hcomma : ',' ≠ ']' := by decide
                simp only [List.append_assoc, List.cons_append, moreElements,
                  dropBlanks_gap_cons (c := ',') hafter rfl, if_neg hcomma, if_true, hc, if_neg hne,
                  hreads.read hbefore, hmore]
        · cases h

private theorem exists_texts_of_elements (hformat : format.Determined) {s rest : List Char} {a : α}
    (h : format.elements s = .ok (a, rest)) :
    ∃ texts inner, Items texts inner ∧ (∀ text ∈ texts, JsonText text) ∧
      s = inner ++ ']' :: rest ∧ ∀ s, format.elements (inner ++ ']' :: s) = .ok (a, s) := by
  unfold RecordFormat.elements at h
  split at h
  · cases h
  next hblanks =>
    split at h
    next hbracket =>
      obtain ⟨gap, hgap, -, rfl⟩ := exists_gap hblanks
      obtain ⟨rfl, hfinish⟩ := finishShort_eq h
      refine ⟨[], gap, .none hgap, by rintro _ ⟨⟩, by rw [hbracket], fun s => ?_⟩
      simp only [elements, dropBlanks_gap_cons (c := ']') hgap rfl, if_true, hfinish]
    · split at h
      · cases h
      next entry entries hentries =>
        split at h
        · cases h
        next hread =>
          have hall : ∀ other ∈ entry :: entries, other.value.Determined := hentries ▸ hformat
          obtain ⟨hentry, hothers⟩ := List.forall_mem_cons.mp hall
          obtain ⟨before, text, hbefore, htext, rfl, hreads⟩ := hentry hread
          obtain ⟨texts, more, rfl, htexts, hlist, hmore⟩ := exists_texts_of_moreElements hothers h
          refine ⟨text :: texts, before ++ (text ++ more), .some (hlist hbefore),
            List.forall_mem_cons.mpr ⟨htext, htexts⟩, by simp, fun s => ?_⟩
          obtain ⟨c, t, hc, hne, -⟩ := dropBlanks_opens hbefore hreads.opens (more ++ ']' :: s)
          simp only [List.append_assoc, elements, hc, if_neg hne, hentries,
            hreads.read hbefore, hmore]

end Array
end RecordFormat

/-- Records with determined entries are determined in both of their forms. -/
theorem determined_record (name : String) {format : Option (RecordFormat α)}
    (hformat : ∀ records ∈ format, records.Determined) : (record name format).Determined := by
  refine determined_of_cons (fun hs => by simp only [record, hs])
    fun {s c behind rest a} hs _ hread => ?_
  simp only [record, hs] at hread
  split at hread
  next hopen =>
    split at hread
    · cases hread
    next format =>
      split at hread
      next hc =>
        obtain ⟨texts, inner, hinner, htexts, rfl, helements⟩ :=
          RecordFormat.exists_texts_of_elements (hformat format rfl) hread
        obtain rfl := hc
        refine ⟨inner ++ [']'], .array htexts ⟨inner, hinner, rfl⟩, by simp,
          reads_of_cons (by decide) fun s rest hs => ?_⟩
        simp only [record, hs, true_or, if_true, List.append_assoc, List.cons_append,
          List.nil_append, helements]
      next hc =>
        obtain rfl := hopen.resolve_left hc
        obtain ⟨members, inner, draft, hmembers, hvalues, hinner, hfinish, rfl⟩ :=
          RecordFormat.exists_passes_of_object (hformat format rfl) hread
        refine ⟨inner ++ ['\x7d'], RecordFormat.jsonText_members hvalues hinner, by simp,
          reads_of_cons (by decide) fun s rest hs => ?_⟩
        have hobject : format.object (inner ++ '\x7d' :: rest) = .ok (a, rest) := by
          rw [hmembers.object_eq hinner, hfinish]
          rfl
        simp only [record, hs, or_true, if_true, if_neg hc, List.append_assoc, List.cons_append,
          List.nil_append, hobject]
  · cases hread

theorem determined_recordAt {format : Nat → RecordFormat α}
    (hformat : ∀ depth, (format depth).Determined) (name : String) (depth : Nat) :
    (recordAt name format depth).Determined :=
  determined_record name (forall_mem_inside hformat depth)

end ResultLayout
