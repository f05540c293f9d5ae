import ResultLayout.Proofs.Json.Reading
import Mathlib.Data.List.Nodup
/-!
# Reading records

A format reads the records that some slots write if each of its entries reads what the slot at its
place writes. In an object the entries are read in any order. That the record comes out the same is
due to the setters: setters of different entries commute, and the setter of a value that may be left
out does nothing to the blank record.
-/
namespace ResultLayout
open Scan Written Reader

variable {α β : Type}

/-- An entry that reads what a slot writes, and what it does to the record read so far. -/
structure Tie (blank : α) where
  entry : Entry α
  slot : Slot
  set : α → α
  key_eq : entry.key = slot.key
  reads : ∀ {s : List Char}, slot.texts s → entry.value.Reads set s
  omitted : slot.omittable → entry.required = false ∧ set blank = blank

namespace Tie

variable {blank : α}

def Commutes (first second : Tie blank) : Prop :=
  ∀ a, first.set (second.set a) = second.set (first.set a)

/-- The record with the values of all ties set. -/
def setAll (ties : List (Tie blank)) (a : α) : α := ties.foldr Tie.set a

/-- The ties whose keys have been read. -/
def known (ties : List (Tie blank)) (keys : List String) : List (Tie blank) :=
  ties.filter fun tie => tie.slot.key ∈ keys

private theorem setAll_cons (tie : Tie blank) (ties : List (Tie blank)) (a : α) :
    setAll (tie :: ties) a = tie.set (setAll ties a) := rfl

private theorem setAll_set {tie : Tie blank} {ties : List (Tie blank)}
    (h : ∀ other ∈ ties, tie.Commutes other) (a : α) :
    setAll ties (tie.set a) = tie.set (setAll ties a) := by
  induction ties with
  | nil => rfl
  | cons other ties ih =>
    rw [setAll_cons, setAll_cons, ih fun other hother => h other (List.mem_cons_of_mem _ hother),
      h other List.mem_cons_self]

private theorem foldl_set_eq {ties : List (Tie blank)} (h : ties.Pairwise Commutes) (a : α) :
    ties.foldl (fun a tie => tie.set a) a = setAll ties a := by
  induction ties generalizing a with
  | nil => rfl
  | cons tie ties ih =>
    obtain ⟨htie, hties⟩ := List.pairwise_cons.mp h
    rw [List.foldl_cons, ih hties, setAll_set htie, setAll_cons]

private theorem known_cons_of_mem {tie : Tie blank} {ties : List (Tie blank)} {keys : List String}
    (h : tie.slot.key ∈ keys) : known (tie :: ties) keys = tie :: known ties keys :=
  List.filter_cons_of_pos (decide_eq_true h)

private theorem known_cons_of_notMem {tie : Tie blank} {ties : List (Tie blank)}
    {keys : List String} (h : tie.slot.key ∉ keys) : known (tie :: ties) keys = known ties keys :=
  List.filter_cons_of_neg (by rwa [decide_eq_true_iff])

private theorem known_of_other_key {ties : List (Tie blank)} {key : String} {keys : List String}
    (h : key ∉ ties.map fun tie => tie.slot.key) : known ties (key :: keys) = known ties keys := by
  refine List.filter_congr fun tie htie => ?_
  have hne : tie.slot.key ≠ key := fun heq => h (List.mem_map.mpr ⟨tie, htie, heq⟩)
  simp only [List.mem_cons, hne, false_or]

private theorem set_setAll_known {tie : Tie blank} {ties : List (Tie blank)} {keys : List String}
    (hmem : tie ∈ ties) (hcommute : ties.Pairwise Commutes)
    (hnodup : (ties.map fun tie => tie.slot.key).Nodup) (hnew : tie.slot.key ∉ keys) (a : α) :
    tie.set (setAll (known ties keys) a) = setAll (known ties (tie.slot.key :: keys)) a := by
  induction ties with
  | nil => cases hmem
  | cons other ties ih =>
    obtain ⟨hother, hcommute⟩ := List.pairwise_cons.mp hcommute
    obtain ⟨hdistinct, hnodup⟩ := List.nodup_cons.mp hnodup
    rcases List.mem_cons.mp hmem with rfl | hmem
    · rw [known_cons_of_notMem hnew, known_cons_of_mem List.mem_cons_self,
        known_of_other_key hdistinct, setAll_cons]
    · have hne : other.slot.key ≠ tie.slot.key := fun heq =>
        hdistinct (List.mem_map.mpr ⟨tie, hmem, heq.symm⟩)
      have hih := ih hmem hcommute hnodup
      by_cases hkey : other.slot.key ∈ keys
      · rw [known_cons_of_mem hkey, known_cons_of_mem (List.mem_cons_of_mem _ hkey), setAll_cons,
          setAll_cons, ← hih, hother tie hmem]
      · have hlater : other.slot.key ∉ tie.slot.key :: keys :=
          List.not_mem_cons_of_ne_of_not_mem hne hkey
        rw [known_cons_of_notMem hkey, known_cons_of_notMem hlater, hih]

private theorem setAll_known {ties : List (Tie blank)} {keys : List String}
    (hcommute : ties.Pairwise Commutes)
    (homitted : ∀ tie ∈ ties, tie.slot.key ∉ keys → tie.slot.omittable) :
    setAll (known ties keys) blank = setAll ties blank := by
  induction ties with
  | nil => rfl
  | cons tie ties ih =>
    obtain ⟨htie, hcommute⟩ := List.pairwise_cons.mp hcommute
    have hih := ih hcommute fun tie h => homitted tie (List.mem_cons_of_mem _ h)
    by_cases hkey : tie.slot.key ∈ keys
    · rw [known_cons_of_mem hkey, setAll_cons, setAll_cons, hih]
    · have hblank := (tie.omitted (homitted tie List.mem_cons_self hkey)).2
      rw [known_cons_of_notMem hkey, hih, setAll_cons, ← setAll_set htie, hblank]

private theorem setAll_omitted {ties : List (Tie blank)} (h : ∀ tie ∈ ties, tie.slot.omittable) :
    setAll ties blank = blank := by
  induction ties with
  | nil => rfl
  | cons tie ties ih =>
    rw [setAll_cons, ih fun tie htie => h tie (List.mem_cons_of_mem _ htie),
      (tie.omitted (h tie List.mem_cons_self)).2]

private theorem not_required_of_omitted {ties : List (Tie blank)}
    (h : ∀ tie ∈ ties, tie.slot.omittable) :
    ∀ entry ∈ ties.map Tie.entry, entry.required = false := by
  intro entry hentry
  obtain ⟨tie, htie, rfl⟩ := List.mem_map.mp hentry
  exact (tie.omitted (h tie htie)).1

private theorem setAll_append_omitted {written omitted : List (Tie blank)}
    (h : ∀ tie ∈ omitted, tie.slot.omittable) :
    setAll (written ++ omitted) blank = setAll written blank := by
  rw [setAll, List.foldr_append, ← setAll, ← setAll, setAll_omitted h]

end Tie

/-- Ties between the entries of a format and the slots of a record, one by one. -/
structure Fit (blank : α) (entries : List (Entry α)) (slots : List Slot) where
  ties : List (Tie blank)
  entries_eq : ties.map Tie.entry = entries
  slots_eq : ties.map Tie.slot = slots

namespace Fit

variable {blank : α} {entries : List (Entry α)} {slots : List Slot}

def nil : Fit blank [] [] := ⟨[], rfl, rfl⟩

/-- A required field of which the reader gives the value in another form. -/
def needAs {γ : Type} {key : String} {reader : Reader γ} {put : γ → α → α} {value : β}
    {texts : β → List Char → Prop} (set : α → α)
    (reads : ∀ {s}, texts value s → (reader.map put).Reads set s)
    (rest : Fit blank entries slots) :
    Fit blank (.need key reader put :: entries) (.required key value texts :: slots) where
  ties := {
    entry := .need key reader put
    slot := .required key value texts
    set := set
    key_eq := rfl
    reads := reads
    omitted := False.elim } :: rest.ties
  entries_eq := by rw [List.map_cons, rest.entries_eq]
  slots_eq := by rw [List.map_cons, rest.slots_eq]

def need {key : String} {reader : Reader β} {put : β → α → α} {value : β}
    {texts : β → List Char → Prop} (reads : ∀ {s}, texts value s → reader.Reads value s)
    (rest : Fit blank entries slots) :
    Fit blank (.need key reader put :: entries) (.required key value texts :: slots) :=
  needAs (put value) (fun h => (reads h).map put) rest

def allow {key : String} {reader : Reader β} {put : β → α → α} {value default : β}
    {texts : β → List Char → Prop} (hblank : put default blank = blank)
    (reads : ∀ {s}, texts value s → reader.Reads value s) (rest : Fit blank entries slots) :
    Fit blank (.allow key reader put :: entries) (.defaulted key value default texts :: slots) where
  ties := {
    entry := .allow key reader put
    slot := .defaulted key value default texts
    set := put value
    key_eq := rfl
    reads := fun h => (reads h).map put
    omitted := fun h => ⟨rfl, (congrArg (put · blank) h).trans hblank⟩ } :: rest.ties
  entries_eq := by rw [List.map_cons, rest.entries_eq]
  slots_eq := by rw [List.map_cons, rest.slots_eq]

end Fit

/-- The slots write the record in a way that the format reads. -/
structure Describes (format : RecordFormat α) (slots : List Slot) (a : α) where
  fit : Fit format.blank format.entries slots
  nodup : (slots.map Slot.key).Nodup
  commute : fit.ties.Pairwise Tie.Commutes
  value_eq : Tie.setAll fit.ties format.blank = a

section Array

variable {format : RecordFormat α}

private theorem firstLacking_eq_none {entries : List (Entry α)}
    (h : ∀ entry ∈ entries, entry.required = false) (index : Nat) :
    RecordFormat.firstLacking index entries = none := by
  induction entries generalizing index with
  | nil => rfl
  | cons entry entries ih =>
    rw [RecordFormat.firstLacking, h entry List.mem_cons_self, if_neg Bool.false_ne_true,
      ih fun entry hentry => h entry (List.mem_cons_of_mem _ hentry)]

private theorem moreElements_closing {entries : List (Entry α)} {gap : List Char} (hgap : Gap gap)
    (h : ∀ entry ∈ entries, entry.required = false) (index : Nat) (a : α) (s : List Char) :
    format.moreElements index entries a (gap ++ ']' :: s) = .ok (a, s) := by
  cases entries with
  | nil => simp only [RecordFormat.moreElements, dropBlanks_gap_cons (c := ']') hgap rfl, if_true]
  | cons entry entries =>
    simp only [RecordFormat.moreElements, dropBlanks_gap_cons (c := ']') hgap rfl, if_true,
      RecordFormat.finishShort, firstLacking_eq_none h]

private theorem opens_of_ties {ties : List (Tie format.blank)} {texts : List (List Char)}
    (h : List.Forall₂ (fun tie => tie.slot.texts) ties texts) :
    ∀ text ∈ texts.head?, Opens text := by
  cases h with
  | nil => rintro _ ⟨⟩
  | @cons tie _ _ _ htie _ =>
    rintro _ ⟨⟩
    exact (tie.reads htie).opens

private theorem read_elements {texts : List (List Char)} {inner : List Char}
    (h : CommaList texts inner) :
    ∀ {written omitted : List (Tie format.blank)},
      List.Forall₂ (fun tie => tie.slot.texts) written texts →
      (∀ tie ∈ omitted, tie.slot.omittable) → ∀ (index : Nat) (a : α) (s : List Char),
      ∃ tie others behind, written = tie :: others ∧
        tie.entry.value.read (inner ++ ']' :: s) = .ok (tie.set, behind) ∧
        format.moreElements index ((others ++ omitted).map Tie.entry) (tie.set a) behind =
          .ok (written.foldl (fun a tie => tie.set a) a, s) := by
  induction h with
  | @one before text after hbefore hafter =>
    rintro _ omitted (_ | ⟨htie, _ | _⟩) homitted index a s
    refine ⟨_, [], after ++ ']' :: s, rfl, ?_,
      moreElements_closing hafter (Tie.not_required_of_omitted homitted) index _ s⟩
    rw [List.append_assoc, List.append_assoc]
    exact (Tie.reads _ htie).read hbefore _
  | @more before text after rest texts hbefore hafter hrest ih =>
    rintro _ omitted (_ | @⟨first, _, _, _, htie, hties⟩) homitted index a s
    obtain ⟨c, t, hc, hne, -⟩ := dropBlanks_commaList hrest (opens_of_ties hties) (']' :: s)
    obtain ⟨tie, others, behind, rfl, hread, hmore⟩ :=
      ih hties homitted (index + 1) (first.set a) s
    refine ⟨first, tie :: others, after ++ ',' :: (rest ++ ']' :: s), rfl, ?_, ?_⟩
    · rw [List.append_assoc, List.append_assoc, List.append_assoc, List.cons_append]
      exact (first.reads htie).read hbefore _
    · have hcomma : ',' ≠ ']' := by decide
      simp only [List.cons_append, List.map_cons, RecordFormat.moreElements,
        dropBlanks_gap_cons (c := ',') hafter rfl, if_neg hcomma, if_true, hc, if_neg hne, hread,
        hmore, List.foldl_cons]

theorem Describes.elements {slots written omitted : List Slot} {a : α}
    (describes : Describes format slots a) (hslots : slots = written ++ omitted)
    {texts : List (List Char)} (hwritten : List.Forall₂ Slot.texts written texts)
    (homitted : ∀ slot ∈ omitted, slot.omittable) {inner : List Char} (h : Items texts inner)
    (s : List Char) : format.elements (inner ++ ']' :: s) = .ok (a, s) := by
  obtain ⟨⟨ties, hentries, hties⟩, hnodup, hcommute, rfl⟩ := describes
  dsimp only at hcommute ⊢
  obtain ⟨written, omitted, rfl, rfl, rfl⟩ := List.map_eq_append_iff.mp (hties.trans hslots)
  have homitted : ∀ tie ∈ omitted, tie.slot.omittable := fun tie htie =>
    homitted tie.slot (List.mem_map_of_mem htie)
  rw [List.forall₂_map_left_iff] at hwritten
  rw [Tie.setAll_append_omitted homitted]
  cases h with
  | none hgap =>
    cases hwritten
    have hrequired : ∀ entry ∈ format.entries, entry.required = false :=
      hentries ▸ Tie.not_required_of_omitted homitted
    simp only [RecordFormat.elements, dropBlanks_gap_cons (c := ']') hgap rfl, if_true,
      RecordFormat.finishShort, firstLacking_eq_none hrequired, Tie.setAll, List.foldr_nil]
  | some h =>
    obtain ⟨c, t, hc, hne, -⟩ := dropBlanks_commaList h (opens_of_ties hwritten) (']' :: s)
    obtain ⟨tie, others, behind, rfl, hread, hmore⟩ :=
      read_elements h hwritten homitted 1 format.blank s
    have hcommute := (List.pairwise_append.mp hcommute).1
    rw [List.cons_append, List.map_cons] at hentries
    simp only [RecordFormat.elements, hc, if_neg hne, ← hentries, hread, hmore,
      Tie.foldl_set_eq hcommute]

end Array

section Object

variable {format : RecordFormat α} {slots : List Slot} {a : α}

/-- The record of which the values at the given keys have been read. -/
def Describes.draft (describes : Describes format slots a) (keys : List String) : Draft α :=
  ⟨Tie.setAll (Tie.known describes.fit.ties keys) format.blank, keys⟩

private theorem Describes.exists_tie (describes : Describes format slots a) {slot : Slot}
    (hslot : slot ∈ slots) : ∃ tie ∈ describes.fit.ties, tie.slot = slot := by
  rw [← describes.fit.slots_eq] at hslot
  exact List.mem_map.mp hslot

private theorem Describes.slot_mem (describes : Describes format slots a) {tie : Tie format.blank}
    (htie : tie ∈ describes.fit.ties) : tie.slot ∈ slots := by
  rw [← describes.fit.slots_eq]
  exact List.mem_map_of_mem htie

theorem Describes.keys_nodup (describes : Describes format slots a) :
    (describes.fit.ties.map fun tie => tie.slot.key).Nodup := by
  have hnodup := describes.nodup
  rw [← describes.fit.slots_eq, List.map_map] at hnodup
  exact hnodup

private theorem Describes.find?_tie (describes : Describes format slots a) {tie : Tie format.blank}
    (htie : tie ∈ describes.fit.ties) :
    format.entries.find? (·.key == tie.slot.key) = some tie.entry := by
  rw [← describes.fit.entries_eq, List.find?_map]
  cases hfind : describes.fit.ties.find? ((fun entry => entry.key == tie.slot.key) ∘ Tie.entry) with
  | none =>
    have hne := List.find?_eq_none.mp hfind tie htie
    exact absurd (beq_iff_eq.mpr tie.key_eq) hne
  | some found =>
    have hfound := List.find?_some hfind
    have hkey : found.entry.key = tie.slot.key := beq_iff_eq.mp hfound
    have hsame : found = tie :=
      List.inj_on_of_nodup_map describes.keys_nodup (List.mem_of_find?_eq_some hfind) htie
        (found.key_eq.symm.trans hkey)
    rw [hsame, Option.map_some]

theorem Describes.find?_eq_none (describes : Describes format slots a) {key : String}
    (h : ∀ slot ∈ slots, slot.key ≠ key) : format.entries.find? (·.key == key) = none := by
  rw [List.find?_eq_none, ← describes.fit.entries_eq]
  intro entry hentry
  obtain ⟨tie, htie, rfl⟩ := List.mem_map.mp hentry
  rw [beq_iff_eq, tie.key_eq]
  exact h tie.slot (describes.slot_mem htie)

private theorem Describes.read_member (describes : Describes format slots a) {member : NamedMember}
    {keys : List String}
    (hknown : ∀ slot ∈ slots, slot.key = member.name → slot.texts member.value)
    (hunknown : (∀ slot ∈ slots, slot.key ≠ member.name) → JsonText member.value)
    (hnew : ∀ slot ∈ slots, slot.key ∈ keys → slot.key ≠ member.name) :
    ∃ reader keys', format.member (describes.draft keys) member.name = .ok reader ∧
      (∀ {gap s : List Char}, Gap gap → EndsNumber s →
        reader.read (gap ++ (member.value ++ s)) = .ok (describes.draft keys', s)) ∧
      ∀ slot ∈ slots, slot.key ∈ keys' ↔ slot.key = member.name ∨ slot.key ∈ keys := by
  by_cases hslot : ∃ slot ∈ slots, slot.key = member.name
  · obtain ⟨slot, hslot, hkey⟩ := hslot
    obtain ⟨tie, htie, rfl⟩ := describes.exists_tie hslot
    have hfresh : tie.slot.key ∉ keys := fun hold => hnew tie.slot hslot hold hkey
    have hreads := tie.reads (hknown tie.slot hslot hkey)
    refine ⟨tie.entry.value.map fun set => ⟨set (describes.draft keys).value, tie.slot.key :: keys⟩,
      tie.slot.key :: keys, ?_, fun hgap _ => ?_, fun slot _ => ?_⟩
    · rw [RecordFormat.member, ← hkey, describes.find?_tie htie]
      exact if_neg hfresh
    · have hset := Tie.set_setAll_known htie describes.commute describes.keys_nodup hfresh
        format.blank
      rw [(hreads.map _).read hgap, Describes.draft, Describes.draft, ← hset]
    · rw [List.mem_cons, hkey]
  · have hother : ∀ slot ∈ slots, slot.key ≠ member.name := fun slot hmem hkey =>
      hslot ⟨slot, hmem, hkey⟩
    refine ⟨ignored.map fun _ => describes.draft keys, keys, ?_, fun hgap hs => ?_,
      fun slot hmem => ?_⟩
    · rw [RecordFormat.member, describes.find?_eq_none hother]
    · simp only [Reader.map, ignored, skipValue_jsonText (hunknown hother) hgap hs]
    · rw [or_iff_right (hother slot hmem)]

private theorem fills_tail {member : NamedMember} {others : List NamedMember}
    (h : Fills slots (member :: others)) : Fills slots others where
  known other hother := h.known other (List.mem_cons_of_mem _ hother)
  unknown other hother := h.unknown other (List.mem_cons_of_mem _ hother)
  once slot hslot := Nat.le_trans List.count_le_count_cons (h.once slot hslot)

private theorem fills_head {member : NamedMember} {others : List NamedMember}
    (h : Fills slots (member :: others)) :
    ∀ slot ∈ slots, slot.key = member.name → slot.key ∉ others.map NamedMember.name := by
  intro slot hslot hkey hmem
  have hcount := h.once slot hslot
  have hpos := List.count_pos_iff.mpr hmem
  rw [List.map_cons, hkey, List.count_cons_self] at hcount
  rw [hkey] at hpos
  omega

private theorem Describes.read_members (describes : Describes format slots a)
    {texts : List (List Char)} {inner : List Char} (h : CommaList texts inner) :
    ∀ {written : List NamedMember} {keys : List String},
      texts = written.map (fun member => member.text) → Fills slots written →
      (∀ slot ∈ slots, slot.key ∈ keys → slot.key ∉ written.map NamedMember.name) →
      ∀ s, ∃ keys',
        members format.member (describes.draft keys) (inner ++ '\x7d' :: s) =
          .ok (describes.draft keys', s) ∧
        ∀ slot ∈ slots, slot.key ∈ keys' ↔
          slot.key ∈ written.map NamedMember.name ∨ slot.key ∈ keys := by
  induction h with
  | @one before text after hbefore hafter =>
    intro written keys htexts hfills hnew s
    obtain ⟨member, rfl, rfl⟩ := List.map_eq_singleton_iff.mp htexts.symm
    obtain ⟨reader, keys', hmember, hread, hkeys⟩ := describes.read_member
      (hfills.known member List.mem_cons_self) (hfills.unknown member List.mem_cons_self)
      fun slot hslot hkey hname => hnew slot hslot hkey (by simp [hname])
    refine ⟨keys', ?_, fun slot hslot => ?_⟩
    · rw [List.append_assoc, List.append_assoc, members_text hbefore hafter rfl hmember
        (hread member.gap_behindColon (endsNumber_gap_cons hafter (Or.inr (Or.inr rfl)) s)),
        if_pos rfl]
    · simpa using hkeys slot hslot
  | @more before text after rest texts hbefore hafter hrest ih =>
    intro written keys htexts hfills hnew s
    obtain ⟨member, others, rfl, rfl, rfl⟩ := List.map_eq_cons_iff.mp htexts.symm
    obtain ⟨reader, keys', hmember, hread, hkeys⟩ := describes.read_member
      (hfills.known member List.mem_cons_self) (hfills.unknown member List.mem_cons_self)
      fun slot hslot hkey hname => hnew slot hslot hkey (by simp [hname])
    have hlater : ∀ slot ∈ slots, slot.key ∈ keys' → slot.key ∉ others.map NamedMember.name := by
      intro slot hslot hkey
      rcases (hkeys slot hslot).mp hkey with hname | hold
      · exact fills_head hfills slot hslot hname
      · exact fun hmem => hnew slot hslot hold (List.mem_cons_of_mem _ hmem)
    obtain ⟨keys'', hmembers, hkeys''⟩ := ih rfl (fills_tail hfills) hlater s
    refine ⟨keys'', ?_, fun slot hslot => ?_⟩
    · rw [List.append_assoc, List.append_assoc, List.append_assoc, List.cons_append,
        members_text hbefore hafter rfl hmember
          (hread member.gap_behindColon (endsNumber_gap_cons hafter (Or.inl rfl) _)),
        if_neg (by decide), if_pos rfl, hmembers]
    · rw [hkeys'' slot hslot, hkeys slot hslot, List.map_cons, List.mem_cons, or_left_comm,
        ← or_assoc]

theorem Describes.finish (describes : Describes format slots a) {keys : List String}
    (h : ∀ slot ∈ slots, slot.key ∉ keys → slot.omittable) :
    format.finish (describes.draft keys) = .ok a := by
  have homitted : ∀ tie ∈ describes.fit.ties, tie.slot.key ∉ keys → tie.slot.omittable :=
    fun tie htie => h tie.slot (describes.slot_mem htie)
  have hnone : (format.entries.find? fun entry =>
      entry.required && !(describes.draft keys).keys.contains entry.key) = none := by
    rw [List.find?_eq_none, ← describes.fit.entries_eq]
    intro entry hentry
    obtain ⟨tie, htie, rfl⟩ := List.mem_map.mp hentry
    rw [Bool.and_eq_true, Bool.not_eq_true', List.contains_eq_mem, decide_eq_false_iff_not,
      tie.key_eq]
    rintro ⟨hrequired, hmissing⟩
    rw [(tie.omitted (homitted tie htie hmissing)).1] at hrequired
    cases hrequired
  rw [RecordFormat.finish, hnone]
  exact congrArg Except.ok
    ((Tie.setAll_known describes.commute homitted).trans describes.value_eq)

theorem Describes.object (describes : Describes format slots a) {written : List NamedMember}
    (hfills : Fills slots written)
    (homitted : ∀ slot ∈ slots, slot.key ∉ written.map NamedMember.name → slot.omittable)
    {inner : List Char} (h : Items (written.map fun member => member.text) inner) (s : List Char) :
    format.object (inner ++ '\x7d' :: s) = .ok (a, s) := by
  have hdraft : (⟨format.blank, []⟩ : Draft α) = describes.draft [] := by
    rw [Describes.draft, Tie.known, List.filter_eq_nil_iff.mpr (by simp)]
    rfl
  generalize htexts : written.map (fun member => member.text) = texts at h
  cases h with
  | none hgap =>
    obtain rfl := List.map_eq_nil_iff.mp htexts
    have hfinish : format.finish (describes.draft []) = .ok a :=
      describes.finish fun slot hslot _ => homitted slot hslot List.not_mem_nil
    rw [← hdraft] at hfinish
    simp only [RecordFormat.object, Reader.object, dropBlanks_gap_cons (c := '\x7d') hgap rfl,
      if_true, hfinish]
  | some h =>
    have hopens : ∀ text ∈ texts.head?, Opens text := by
      rw [← htexts, List.head?_map]
      intro text htext
      obtain ⟨member, -, rfl⟩ := Option.map_eq_some_iff.mp htext
      obtain ⟨inner, hkey, -⟩ := string_stringText member.key_text
      exact opens_of_key hkey
    obtain ⟨c, t, hc, -, hne⟩ := dropBlanks_commaList h hopens ('\x7d' :: s)
    obtain ⟨keys, hmembers, hkeys⟩ := describes.read_members h htexts.symm hfills
      (fun _ _ hkey => absurd hkey List.not_mem_nil) s
    have hfinish := describes.finish fun slot hslot hmissing =>
      homitted slot hslot fun hname => hmissing ((hkeys slot hslot).mpr (Or.inl hname))
    simp only [RecordFormat.object, Reader.object, hc, if_neg hne, hdraft, hmembers, hfinish]

end Object

/-- A record is read from each of its texts. -/
theorem Describes.reads_record {format : RecordFormat α} {slots : List Slot} {a : α}
    (describes : Describes format slots a) (name : String) {s : List Char}
    (h : RecordText slots s) : (record name (some format)).Reads a s := by
  cases h with
  | object hfills homitted h =>
    obtain ⟨inner, hinner, rfl⟩ := h
    refine reads_of_cons (by decide) fun s rest hs => ?_
    have hobject := describes.object hfills homitted hinner rest
    have hne : '\x7b' ≠ '[' := by decide
    simp only [record, hs, or_true, if_true, if_neg hne, List.append_assoc, List.cons_append,
      List.nil_append, hobject]
  | array n hwritten homitted h =>
    obtain ⟨inner, hinner, rfl⟩ := h
    refine reads_of_cons (by decide) fun s rest hs => ?_
    have helements := describes.elements (List.take_append_drop n slots).symm hwritten homitted
      hinner rest
    simp only [record, hs, true_or, if_true, List.append_assoc, List.cons_append,
      List.nil_append, helements]

end ResultLayout
