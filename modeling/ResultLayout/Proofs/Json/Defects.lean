import ResultLayout.Proofs.Json.Members
import Mathlib.Data.List.Find
import Mathlib.Data.List.Nodup
/-!
# Repeated and missing keys

An object ends in a fault as soon as a known key comes again, and at its closing brace if required
keys are missing. What stands behind plays no part. Of several missing keys the fault names the one
that the format declares first.
-/
namespace ResultLayout
open Scan Written Reader

variable {α : Type}

theorem members_fault {σ : Type} {next : σ → String → Except Fault (Reader σ)} {state : σ}
    {s s₁ s₂ key : List Char} {fault : Fault} (hquote : dropBlanks s = '"' :: s₁)
    (hkey : string [] s₁ = .ok (key, s₂))
    (h : next state (String.ofList key) = .error fault ∨
      ∃ reader s₃, next state (String.ofList key) = .ok reader ∧ colon s₂ = .ok s₃ ∧
        reader.read s₃ = .error fault) :
    Reader.members next state s = .error fault := by
  rw [Reader.members]
  split
  next hnil => rw [hquote] at hnil; cases hnil
  next hcons =>
    rw [hquote] at hcons
    cases hcons
    rw [if_pos rfl]
    split
    next hfault => rw [hkey] at hfault; cases hfault
    next hok =>
      rw [hkey] at hok
      cases hok
      rcases h with hnext | ⟨reader, s₃, hnext, hcolon, hread⟩
      · rw [hnext]
      · rw [hnext]
        dsimp only
        split
        next hfault => rw [hcolon] at hfault; cases hfault
        next hok =>
          rw [hcolon] at hok
          cases hok
          split
          next hfault => rw [hread] at hfault; cases hfault; rfl
          next hok => rw [hread] at hok; cases hok

namespace RecordFormat

variable {format : RecordFormat α} {members : List NamedMember} {draft draft' : Draft α}

section Keys

private theorem Takes.mem_keys {member : NamedMember} (h : format.Takes member draft draft')
    {key : String} (hkey : (format.entry? key).isSome) :
    key ∈ draft'.keys ↔ key = member.name ∨ key ∈ draft.keys := by
  cases h with
  | known hentry hnew hvalue => exact List.mem_cons
  | unknown hentry hvalue =>
    have hne : key ≠ member.name := by
      rintro rfl
      rw [hentry] at hkey
      cases hkey
    exact (or_iff_right hne).symm

private theorem Passes.mem_keys (h : format.Passes members draft draft') {key : String}
    (hkey : (format.entry? key).isSome) :
    key ∈ draft'.keys ↔ key ∈ members.map NamedMember.name ∨ key ∈ draft.keys := by
  induction h with
  | nil => simp
  | cons hmember hmembers ih =>
    rw [ih, hmember.mem_keys hkey, List.map_cons, List.mem_cons, or_left_comm, ← or_assoc]

private theorem Takes.of_fewer {member : NamedMember} (h : format.Takes member draft draft')
    {fewer : Draft α} (hfewer : fewer.keys ⊆ draft.keys) :
    ∃ fewer', format.Takes member fewer fewer' ∧ fewer'.keys ⊆ draft'.keys := by
  cases h with
  | known hentry hnew hvalue =>
    exact ⟨_, .known hentry (fun hold => hnew (hfewer hold)) hvalue, List.cons_subset_cons _ hfewer⟩
  | unknown hentry hvalue => exact ⟨fewer, .unknown hentry hvalue, hfewer⟩

private theorem Takes.keys_subset {member : NamedMember} (h : format.Takes member draft draft') :
    draft.keys ⊆ draft'.keys := by
  cases h with
  | known => exact List.subset_cons_self _ _
  | unknown => exact List.Subset.refl _

private theorem Passes.of_sublist (h : format.Passes members draft draft') {kept : List NamedMember}
    (hkept : kept.Sublist members) {fewer : Draft α} (hfewer : fewer.keys ⊆ draft.keys) :
    ∃ fewer', format.Passes kept fewer fewer' := by
  induction h generalizing kept fewer with
  | nil =>
    cases hkept
    exact ⟨fewer, .nil fewer⟩
  | cons hmember hmembers ih =>
    cases hkept with
    | cons _ hkept => exact ih hkept (List.Subset.trans hfewer hmember.keys_subset)
    | cons_cons _ hkept =>
      obtain ⟨fewer', hfirst, hfewer'⟩ := hmember.of_fewer hfewer
      obtain ⟨fewer'', hothers⟩ := ih hkept hfewer'
      exact ⟨fewer'', .cons hfirst hothers⟩

end Keys

section Repeated

theorem Passes.object_leading (h : format.Passes members format.empty draft) {front s : List Char}
    (hfront : Leading (members.map fun member => member.text) front)
    (hs : ∃ rest, dropBlanks s = '"' :: rest) :
    Reader.object format.member format.empty (front ++ s) =
      Reader.members format.member draft s := by
  obtain ⟨rest, hs⟩ := hs
  have hbegins : Begins s := ⟨'"', rest, hs, by decide⟩
  obtain ⟨c, t, hc, -, hne⟩ := begins_leading hfront (opens_members members) hbegins
  simp only [Reader.object, hc, if_neg hne, h.members_leading hfront]

/-- A known key that comes again ends the object in a fault, whatever stands behind it. -/
theorem Passes.object_repeated (h : format.Passes members format.empty draft) {front : List Char}
    (hfront : Leading (members.map fun member => member.text) front) {name : String}
    (hname : name ∈ members.map NamedMember.name) (hknown : (format.entry? name).isSome)
    {gap key : List Char} (hgap : Gap gap) (hkey : StringText name key) (further : List Char) :
    format.object (front ++ (gap ++ (key ++ further))) = .error (.duplicateKey name) := by
  obtain ⟨inner, rfl, hstring⟩ := string_stringText hkey
  have hquote : dropBlanks (gap ++ ('"' :: inner ++ further)) = '"' :: (inner ++ further) :=
    dropBlanks_gap_cons hgap rfl _
  have hold : name ∈ draft.keys := (h.mem_keys hknown).mpr (Or.inl hname)
  have hnext : format.member draft (String.ofList name.toList) = .error (.duplicateKey name) := by
    obtain ⟨entry, hentry⟩ := Option.isSome_iff_exists.mp hknown
    rw [String.ofList_toList, RecordFormat.member, ← entry?, hentry]
    exact if_pos hold
  have hobject := h.object_leading hfront ⟨_, hquote⟩
  rw [members_fault hquote (hstring further) (Or.inl hnext), empty] at hobject
  rw [RecordFormat.object, hobject]

end Repeated

section Missing

private theorem required_mem_keys {a : α} (h : format.finish draft = .ok a) {entry : Entry α}
    (hentry : entry ∈ format.entries) (hrequired : entry.required = true) :
    entry.key ∈ draft.keys := by
  unfold finish at h
  split at h
  · cases h
  next hnone =>
    have hkey := List.find?_eq_none.mp hnone entry hentry
    simpa [hrequired] using hkey

private theorem lacking_iff {a : α} (hmembers : format.Passes members format.empty draft)
    (hfinish : format.finish draft = .ok a) (hnodup : (format.entries.map Entry.key).Nodup)
    {keys : List String}
    (hkeys : ∀ key ∈ keys, ∃ entry ∈ format.entries, entry.required = true ∧ entry.key = key)
    (hkept : format.Passes (members.filter fun member => member.name ∉ keys) format.empty draft')
    {entry : Entry α} (hentry : entry ∈ format.entries) :
    (entry.required && !draft'.keys.contains entry.key) = keys.contains entry.key := by
  have hknown : (format.entry? entry.key).isSome :=
    List.find?_isSome.mpr ⟨entry, hentry, beq_iff_eq.mpr rfl⟩
  have hempty : entry.key ∉ format.empty.keys := List.not_mem_nil
  have hread := hmembers.mem_keys hknown
  have hread' := hkept.mem_keys hknown
  rw [or_iff_left hempty] at hread hread'
  have hfilter : entry.key ∈ draft'.keys ↔ entry.key ∈ draft.keys ∧ entry.key ∉ keys := by
    rw [hread, hread']
    simp only [List.mem_map, List.mem_filter, decide_eq_true_iff]
    constructor
    · rintro ⟨member, ⟨hmember, hname⟩, hkey⟩
      exact ⟨⟨member, hmember, hkey⟩, hkey ▸ hname⟩
    · rintro ⟨⟨member, hmember, hkey⟩, hname⟩
      exact ⟨member, ⟨hmember, hkey ▸ hname⟩, hkey⟩
  by_cases hkey : entry.key ∈ keys
  · obtain ⟨entry', hentry', hrequired, hsame⟩ := hkeys entry.key hkey
    obtain rfl := List.inj_on_of_nodup_map hnodup hentry' hentry hsame
    simp [hrequired, hfilter, hkey]
  · cases hrequired : entry.required with
    | false => simp [hkey]
    | true => simp [hkey, hfilter, required_mem_keys hfinish hentry hrequired]

/-- An object that has ended well ends in a fault once the members of some required keys are
deleted, whatever stands behind it. The fault names the key that is declared first. -/
theorem Passes.object_lacking {a : α} (hmembers : format.Passes members format.empty draft)
    (hfinish : format.finish draft = .ok a) (hnodup : (format.entries.map Entry.key).Nodup)
    {keys : List String}
    (hkeys : ∀ key ∈ keys, ∃ entry ∈ format.entries, entry.required = true ∧ entry.key = key)
    {entry : Entry α}
    (hentry : format.entries.find? (fun entry => keys.contains entry.key) = some entry)
    {kept : List NamedMember} (hkept : kept = members.filter fun member => member.name ∉ keys)
    {inner : List Char} (hinner : Items (kept.map fun member => member.text) inner)
    (further : List Char) :
    format.object (inner ++ '\x7d' :: further) = .error (.missingKey entry.key) := by
  subst hkept
  obtain ⟨draft', hkept⟩ := hmembers.of_sublist List.filter_sublist (List.Subset.refl _)
  have hlacking : format.entries.find? (fun entry =>
      entry.required && !draft'.keys.contains entry.key) =
        format.entries.find? fun entry => keys.contains entry.key :=
    List.find?_congr fun entry hentry => lacking_iff hmembers hfinish hnodup hkeys hkept hentry
  rw [hkept.object_eq hinner, RecordFormat.finish, hlacking, hentry]
  rfl

end Missing
end RecordFormat
end ResultLayout
