import ResultLayout.Proofs.Json.Accepted
import ResultLayout.Proofs.Json.Reading
/-!
# What a reader takes determines what it reads

A reader is determined if what it takes from a text is one value of the grammar and is read in the
same way with anything else behind it. The readers of strings, key words and variants are
determined, and so are arrays of what determined readers read.
-/
namespace ResultLayout.Reader
open Scan Written

variable {α β : Type}

/-- What the reader takes is a value, which it reads whatever follows. -/
def Determined (reader : Reader α) : Prop :=
  ∀ ⦃s rest : List Char⦄ ⦃a : α⦄, reader.read s = .ok (a, rest) →
    ∃ gap text, Gap gap ∧ JsonText text ∧ s = gap ++ (text ++ rest) ∧ reader.Reads a text

theorem determined_map {reader : Reader α} (h : reader.Determined) (f : α → β) :
    (reader.map f).Determined := by
  intro s rest b hread
  simp only [Reader.map] at hread
  split at hread
  · cases hread
  next hreader =>
    cases hread
    obtain ⟨gap, text, hgap, htext, hs, hreads⟩ := h hreader
    exact ⟨gap, text, hgap, htext, hs, hreads.map f⟩

theorem determined_delay {reader : Unit → Reader α} (h : (reader ()).Determined) :
    (delay reader).Determined := by
  intro s rest a hread
  obtain ⟨gap, text, hgap, htext, hs, hreads⟩ := h hread
  exact ⟨gap, text, hgap, htext, hs, hreads.delay⟩

/-- It is enough to look at what is read from the first character on that is no blank. -/
theorem determined_of_cons {reader : Reader α}
    (hnil : ∀ {s}, dropBlanks s = [] → reader.read s = .error .unfinished)
    (hcons : ∀ {s c behind rest a}, dropBlanks s = c :: behind → isBlank c = false →
      reader.read s = .ok (a, rest) →
      ∃ text, JsonText (c :: text) ∧ behind = text ++ rest ∧ reader.Reads a (c :: text)) :
    reader.Determined := by
  intro s rest a hread
  cases hblanks : dropBlanks s with
  | nil =>
    rw [hnil hblanks] at hread
    cases hread
  | cons c behind =>
    obtain ⟨gap, hgap, hc, hs⟩ := exists_gap hblanks
    obtain ⟨text, htext, rfl, hreads⟩ := hcons hblanks hc hread
    exact ⟨gap, c :: text, hgap, htext, hs, hreads⟩

section Scalars

private theorem exists_stringText {s chars rest : List Char} (h : string [] s = .ok (chars, rest)) :
    ∃ text, StringText (String.ofList chars) ('"' :: text) ∧ s = text ++ rest := by
  obtain ⟨text, htext, hs⟩ := stringText_of_string h
  obtain ⟨inner, rfl, -⟩ := string_stringText htext
  exact ⟨inner, htext, (List.cons.inj hs).2⟩

theorem determined_text : text.Determined := by
  refine determined_of_cons (fun hs => by simp only [text, hs])
    fun {s c behind rest a} hs _ hread => ?_
  simp only [text, hs] at hread
  split at hread
  next hc =>
    split at hread
    · cases hread
    next hstring =>
      cases hread
      obtain ⟨text, htext, rfl⟩ := exists_stringText hstring
      rw [← hc] at htext
      exact ⟨text, .string (rawString_of_stringText htext), rfl, reads_text htext⟩
  · cases hread

private theorem gap_eq_nil {gap text s : List Char} {c : Char} (hgap : Gap gap)
    (hc : isBlank c = false) (h : c :: s = gap ++ text) : gap = [] := by
  cases gap with
  | nil => rfl
  | cons d gap =>
    cases h
    rw [isBlank_of_gap hgap c List.mem_cons_self] at hc
    cases hc

private theorem Determined.of_cons {reader : Reader α} (h : reader.Determined) {c : Char}
    {s rest : List Char} {a : α} (hc : isBlank c = false)
    (hread : reader.read (c :: s) = .ok (a, rest)) :
    ∃ text, JsonText (c :: text) ∧ s = text ++ rest ∧ reader.Reads a (c :: text) := by
  obtain ⟨gap, text, hgap, htext, hs, hreads⟩ := h hread
  obtain rfl := gap_eq_nil hgap hc hs
  obtain ⟨d, text, rfl, -⟩ := hreads.opens
  cases hs
  exact ⟨text, htext, rfl, hreads⟩

theorem determined_orNull {reader : Reader α} (h : reader.Determined) :
    (orNull reader).Determined := by
  refine determined_of_cons (fun hs => by simp only [orNull, hs])
    fun {s c behind rest a} hs hblank hread => ?_
  simp only [orNull, hs] at hread
  split at hread
  next hc =>
    split at hread
    · cases hread
    next hword =>
      cases hread
      obtain rfl := hc
      refine ⟨['u', 'l', 'l'], .null, word_eq hword, reads_of_cons (by decide) fun s rest hs => ?_⟩
      simp only [orNull, hs, if_true, word_append ['u', 'l', 'l'] rest]
  next hc =>
    split at hread
    · cases hread
    next hreader =>
      cases hread
      obtain ⟨text, htext, rfl, hreads⟩ := h.of_cons hblank hreader
      refine ⟨text, htext, rfl, reads_of_cons ?_ fun s rest hs => ?_⟩
      · obtain ⟨_, _, hcons, hopens⟩ := hreads.opens
        cases hcons
        exact hopens
      · simp only [orNull, hs, if_neg hc, hreads.read_cons rest]

private theorem keyWord_eq {letters s rest : List Char} {a b : α}
    (h : keyWord letters a s = .ok (b, rest)) : b = a ∧ s = letters ++ rest := by
  unfold keyWord at h
  split at h
  · cases h
  next hword =>
    cases h
    exact ⟨rfl, word_eq hword⟩

theorem determined_flag : flag.Determined := by
  refine determined_of_cons (fun hs => by simp only [flag, hs])
    fun {s c behind rest a} hs _ hread => ?_
  simp only [flag, hs] at hread
  split at hread
  next hc =>
    obtain ⟨rfl, hbehind⟩ := keyWord_eq hread
    exact hc ▸ ⟨['r', 'u', 'e'], .true, hbehind, reads_flag .true⟩
  · split at hread
    next hc =>
      obtain ⟨rfl, hbehind⟩ := keyWord_eq hread
      exact hc ▸ ⟨['a', 'l', 's', 'e'], .false, hbehind, reads_flag .false⟩
    · cases hread

private theorem determined_unit : unit.Determined := by
  refine determined_of_cons (fun hs => by simp only [unit, hs])
    fun {s c behind rest a} hs _ hread => ?_
  simp only [unit, hs] at hread
  split at hread
  next hc =>
    obtain rfl := hc
    refine ⟨['u', 'l', 'l'], .null, (keyWord_eq hread).2,
      reads_of_cons (by decide) fun s rest hs => ?_⟩
    simp only [unit, hs, if_true, keyWord, word_append ['u', 'l', 'l'] rest]
  · cases hread

private theorem variantObject_member {name : String} {before after : List Char}
    {member : MemberText}
    (hbefore : Gap before) (hafter : Gap after) (hkey : StringText name member.key)
    (hvalue : unit.Reads () member.value) (s : List Char) :
    variantObject (before ++ (member.text ++ (after ++ '\x7d' :: s))) = .ok (name, s) := by
  obtain ⟨key, hcons, hstring⟩ := string_stringText hkey
  have hquote : dropBlanks (before ++ (member.text ++ (after ++ '\x7d' :: s))) =
      '"' :: (key ++ (member.beforeColon ++ ':' ::
        (member.behindColon ++ (member.value ++ (after ++ '\x7d' :: s))))) := by
    rw [MemberText.text, hcons]
    simp only [List.cons_append, List.append_assoc]
    exact dropBlanks_gap_cons hbefore rfl _
  simp only [variantObject, hquote, if_true, hstring, colon_gap member.gap_beforeColon,
    hvalue.read member.gap_behindColon, dropBlanks_gap_cons (c := '\x7d') hafter rfl,
    String.ofList_toList]

private theorem exists_member_of_variantObject {s rest : List Char} {name : String}
    (h : variantObject s = .ok (name, rest)) :
    ∃ (member : MemberText) (before after : List Char), Gap before ∧ Gap after ∧
      StringText name member.key ∧ JsonText member.value ∧ unit.Reads () member.value ∧
      s = before ++ (member.text ++ (after ++ '\x7d' :: rest)) := by
  unfold variantObject at h
  split at h
  · cases h
  next hblanks =>
    obtain ⟨before, hbefore, -, rfl⟩ := exists_gap hblanks
    split at h
    next hquote =>
      obtain rfl := hquote
      split at h
      · cases h
      next hstring =>
        obtain ⟨key, hkey, hbehind⟩ := stringText_of_string hstring
        split at h
        · cases h
        next hcolon =>
          obtain ⟨beforeColon, hbeforeColon, rfl⟩ := gap_of_colon hcolon
          split at h
          · cases h
          next hunit =>
            obtain ⟨behindColon, value, hbehindColon, hvalue, rfl, hreads⟩ := determined_unit hunit
            split at h
            · cases h
            next hend =>
              obtain ⟨after, hafter, -, rfl⟩ := exists_gap hend
              split at h
              next hbrace =>
                cases h
                obtain rfl := hbrace
                refine ⟨⟨key, beforeColon, behindColon, value, hbeforeColon, hbehindColon⟩, before,
                  after, hbefore, hafter, hkey, hvalue, hreads, ?_⟩
                simp only [hbehind, MemberText.text, List.append_assoc, List.cons_append]
              · cases h
    · cases h

theorem determined_variant (canOpen : Bool) : (variant canOpen).Determined := by
  refine determined_of_cons (fun hs => by simp only [variant, hs])
    fun {s c behind rest a} hs hblank hread => ?_
  simp only [variant, hs] at hread
  split at hread
  next hc =>
    obtain ⟨text, htext, rfl, hreads⟩ := determined_text.of_cons hblank hread
    refine ⟨text, htext, rfl, reads_of_cons (hc ▸ by decide) fun s rest hs => ?_⟩
    simp only [variant, hs, if_pos hc, hreads.read_cons rest]
  next hquote =>
    split at hread
    next hc =>
      split at hread
      next hopen =>
        obtain ⟨member, before, after, hbefore, hafter, hkey, hvalue, hreads, rfl⟩ :=
          exists_member_of_variantObject hread
        have hitems : Items [member.text] (before ++ (member.text ++ after)) :=
          .some (.one hbefore hafter)
        have hitem : ItemText .object member.text :=
          .member member (rawString_of_stringText hkey) hvalue
        refine ⟨before ++ (member.text ++ after) ++ ['\x7d'], ?_, by simp,
          reads_of_cons (hc ▸ by decide) fun s rest hs => ?_⟩
        · exact hc ▸ jsonText_object hitems (List.forall_mem_singleton.mpr hitem)
        · simp only [variant, hs, if_neg hquote, if_pos hc, if_pos hopen, List.append_assoc,
            List.cons_append, List.nil_append, variantObject_member hbefore hafter hkey hreads]
      · cases hread
    · cases hread

end Scalars

section Arrays

private theorem exists_texts_of_moreItems {item : Reader α} (hitem : item.Determined)
    {s rest : List Char} {as : List α} (h : moreItems item s = .ok (as, rest)) :
    ∃ texts more, s = more ++ ']' :: rest ∧ (∀ text ∈ texts, JsonText text) ∧
      List.Forall₂ item.Reads as texts ∧
      ∀ {gap text}, Gap gap → CommaList (text :: texts) (gap ++ (text ++ more)) := by
  fun_induction moreItems item s generalizing as rest with
  | case1 => cases h
  | case2 s behind hblanks =>
    cases h
    obtain ⟨after, hafter, -, rfl⟩ := exists_gap hblanks
    exact ⟨[], after, rfl, by rintro _ ⟨⟩, .nil, fun hgap => .one hgap hafter⟩
  | case3 => cases h
  | case4 => cases h
  | case5 => cases h
  | case6 => cases h
  | case7 s behind d tail _ _ a behind' hread as' rest' hmore hblanks _ ih =>
    cases h
    obtain ⟨after, hafter, -, rfl⟩ := exists_gap hblanks
    obtain ⟨before, text, hbefore, htext, rfl, hreads⟩ := hitem hread
    obtain ⟨texts, more, rfl, htexts, has, hlist⟩ := ih hmore
    refine ⟨text :: texts, after ++ ',' :: (before ++ (text ++ more)), by simp,
      List.forall_mem_cons.mpr ⟨htext, htexts⟩, .cons hreads has, fun hgap => ?_⟩
    exact .more hgap hafter (hlist hbefore)
  | case8 => cases h

private theorem exists_texts_of_items {item : Reader α} (hitem : item.Determined)
    {s rest : List Char} {as : List α} (h : items item s = .ok (as, rest)) :
    ∃ texts inner, Items texts inner ∧ (∀ text ∈ texts, JsonText text) ∧
      List.Forall₂ item.Reads as texts ∧ s = inner ++ ']' :: rest := by
  unfold items at h
  split at h
  · cases h
  next hblanks =>
    split at h
    next hbracket =>
      cases h
      obtain ⟨gap, hgap, -, rfl⟩ := exists_gap hblanks
      exact ⟨[], gap, .none hgap, by rintro _ ⟨⟩, .nil, by rw [hbracket]⟩
    · split at h
      · cases h
      next hread =>
        split at h
        · cases h
        next hmore =>
          cases h
          obtain ⟨before, text, hbefore, htext, rfl, hreads⟩ := hitem hread
          obtain ⟨texts, more, rfl, htexts, has, hlist⟩ := exists_texts_of_moreItems hitem hmore
          exact ⟨text :: texts, before ++ (text ++ more), .some (hlist hbefore),
            List.forall_mem_cons.mpr ⟨htext, htexts⟩, .cons hreads has, by simp⟩

theorem determined_list (wanted : String) {item : Option (Reader α)}
    (hitem : ∀ reader ∈ item, reader.Determined) : (list wanted item).Determined := by
  refine determined_of_cons (fun hs => by simp only [list, hs])
    fun {s c behind rest as} hs _ hread => ?_
  simp only [list, hs] at hread
  split at hread
  next hc =>
    split at hread
    · cases hread
    next reader =>
      obtain rfl := hc
      obtain ⟨texts, inner, hinner, htexts, has, rfl⟩ :=
        exists_texts_of_items (hitem reader rfl) hread
      have harray : ArrayText reader.Reads as ('[' :: (inner ++ [']'])) :=
        ⟨texts, has, inner, hinner, rfl⟩
      exact ⟨inner ++ [']'], .array htexts ⟨inner, hinner, rfl⟩, by simp,
        reads_list id wanted harray⟩
  · cases hread

theorem forall_mem_inside {item : Nat → α} {p : α → Prop} (h : ∀ depth, p (item depth))
    (depth : Nat) : ∀ a ∈ inside item depth, p a := by
  cases depth with
  | zero => rintro _ ⟨⟩
  | succ depth =>
    rintro _ ⟨⟩
    exact h depth

theorem determined_listAt {item : Nat → Reader α} (hitem : ∀ depth, (item depth).Determined)
    (depth : Nat) : (listAt item depth).Determined :=
  determined_list _ (forall_mem_inside hitem depth)

theorem determined_textsAt (depth : Nat) : (textsAt depth).Determined :=
  determined_listAt (fun _ => determined_text) depth

theorem determined_textSetAt (depth : Nat) : (textSetAt depth).Determined :=
  determined_map (determined_list _ (forall_mem_inside (fun _ => determined_text) depth)) _

end Arrays
end ResultLayout.Reader
