import ResultLayout.Json.Reader
/-!
# Records in JSON documents

A record is written as an object with known keys in any order, or as an array of its entries in the
order of their declaration. Entries that are not required may be left out, in an array at its end.

Unknown keys are skipped with their values. A known key that comes twice is a fault when it is read
again, and a missing required key when the object ends.
-/
namespace ResultLayout

/-- An entry of a record: its key, and how its value changes the record read so far. -/
structure Entry (α : Type) where
  key : String
  required : Bool
  value : Reader (α → α)

namespace Entry

variable {α β : Type}

def need (key : String) (value : Reader β) (set : β → α → α) : Entry α := ⟨key, true, value.map set⟩

def allow (key : String) (value : Reader β) (set : β → α → α) : Entry α :=
  ⟨key, false, value.map set⟩

end Entry

/-- The entries of a record in the order of their declaration, and the record without any of them. -/
structure RecordFormat (α : Type) where
  name : String
  blank : α
  entries : List (Entry α)

/-- A record of which some keys have been read. -/
structure Draft (α : Type) where
  value : α
  keys : List String

namespace RecordFormat
open Scan

variable {α : Type}

/-- How the value of the next key is read. -/
def member (format : RecordFormat α) (draft : Draft α) (key : String) :
    Except Fault (Reader (Draft α)) :=
  match format.entries.find? (·.key == key) with
  | none => .ok (Reader.ignored.map fun _ => draft)
  | some entry =>
    if key ∈ draft.keys then .error (.duplicateKey key)
    else .ok (entry.value.map fun set => ⟨set draft.value, key :: draft.keys⟩)

/-- The record of an object that has ended. -/
def finish (format : RecordFormat α) (draft : Draft α) : Except Fault α :=
  match format.entries.find? fun entry => entry.required && !draft.keys.contains entry.key with
  | some entry => .error (.missingKey entry.key)
  | none => .ok draft.value

/-- The index of the first required entry among those that an array lacks. -/
def firstLacking (index : Nat) : List (Entry α) → Option Nat
  | [] => none
  | entry :: entries => if entry.required then some index else firstLacking (index + 1) entries

/-- Ends an array before all entries have been read. -/
def finishShort (format : RecordFormat α) (index : Nat) (lacking : List (Entry α)) (value : α)
    (s : List Char) : Outcome α :=
  match firstLacking index lacking with
  | some length => .error (.tooShort length format.name format.entries.length)
  | none => .ok (value, s)

/-- The entries of an array behind one that has been read. An array with more entries than the
record is malformed at the comma. -/
def moreElements (format : RecordFormat α) (index : Nat) (entries : List (Entry α)) (value : α)
    (s : List Char) : Outcome α :=
  match entries with
  | [] =>
    match dropBlanks s with
    | [] => .error .unfinished
    | c :: rest => if c = ']' then .ok (value, rest) else .error .malformed
  | entry :: entries =>
    match dropBlanks s with
    | [] => .error .unfinished
    | c :: rest =>
      if c = ']' then format.finishShort index (entry :: entries) value rest
      else if c = ',' then
        match dropBlanks rest with
        | [] => .error .unfinished
        | d :: _ =>
          if d = ']' then .error .malformed
          else
            match entry.value.read rest with
            | .error fault => .error fault
            | .ok (set, rest) => format.moreElements (index + 1) entries (set value) rest
      else .error .malformed

/-- The entries of an array behind its opening bracket. -/
def elements (format : RecordFormat α) (s : List Char) : Outcome α :=
  match dropBlanks s with
  | [] => .error .unfinished
  | c :: rest =>
    if c = ']' then format.finishShort 0 format.entries format.blank rest
    else
      match format.entries with
      | [] => .error .malformed
      | entry :: entries =>
        match entry.value.read s with
        | .error fault => .error fault
        | .ok (set, rest) => format.moreElements 1 entries (set format.blank) rest

private theorem length_of_finishShort {format : RecordFormat α} {index : Nat}
    {lacking : List (Entry α)} {value a : α} {s rest : List Char}
    (h : format.finishShort index lacking value s = .ok (a, rest)) : rest = s := by
  unfold finishShort at h
  split at h
  · cases h
  · cases h; rfl

private theorem length_of_moreElements {format : RecordFormat α} {index : Nat}
    {entries : List (Entry α)} {value a : α} {s rest : List Char}
    (h : format.moreElements index entries value s = .ok (a, rest)) : rest.length < s.length := by
  induction entries generalizing index value s with
  | nil =>
    simp only [moreElements] at h
    split at h
    · cases h
    next hblanks =>
      split at h
      · cases h; exact length_of_dropBlanks hblanks
      · cases h
  | cons entry entries ih =>
    simp only [moreElements] at h
    split at h
    · cases h
    next hblanks =>
      have hlt := length_of_dropBlanks hblanks
      split at h
      · rw [length_of_finishShort h]
        exact hlt
      · split at h
        · split at h
          · cases h
          · split at h
            · cases h
            · split at h
              · cases h
              next hread =>
                have := entry.value.shorter hread
                have := ih h
                omega
        · cases h

private theorem length_of_elements {format : RecordFormat α} {a : α} {s rest : List Char}
    (h : format.elements s = .ok (a, rest)) : rest.length < s.length := by
  unfold elements at h
  split at h
  · cases h
  next hblanks =>
    split at h
    · rw [length_of_finishShort h]
      exact length_of_dropBlanks hblanks
    · split at h
      · cases h
      next entry entries _ =>
        split at h
        · cases h
        next hread => exact Nat.lt_trans (length_of_moreElements h) (entry.value.shorter hread)

/-- The record of an object behind its opening brace. -/
def object (format : RecordFormat α) (s : List Char) : Outcome α :=
  match Reader.object format.member ⟨format.blank, []⟩ s with
  | .error fault => .error fault
  | .ok (draft, rest) =>
    match format.finish draft with
    | .error fault => .error fault
    | .ok a => .ok (a, rest)

theorem length_of_object {format : RecordFormat α} {a : α} {s rest : List Char}
    (h : format.object s = .ok (a, rest)) : rest.length < s.length := by
  unfold object at h
  split at h
  · cases h
  next hobject =>
    split at h
    · cases h
    · cases h
      exact Reader.length_of_object hobject

end RecordFormat

namespace Reader
open Scan

variable {α : Type}

/-- Reads a record of the given name in either of its forms. -/
def record (name : String) (format : Option (RecordFormat α)) : Reader α where
  read s :=
    match dropBlanks s with
    | [] => .error .unfinished
    | c :: rest =>
      if c = '[' ∨ c = '\x7b' then
        match format with
        | none => .error .malformed
        | some format => if c = '[' then format.elements rest else format.object rest
      else .error (mismatch ("struct " ++ name) (c :: rest))
  shorter := by
    intro s a rest h
    split at h
    · cases h
    next hblanks =>
      have hlt := length_of_dropBlanks hblanks
      split at h
      · split at h
        · cases h
        · split at h
          · exact Nat.lt_trans (RecordFormat.length_of_elements h) hlt
          · exact Nat.lt_trans (RecordFormat.length_of_object h) hlt
      · cases h

/-- Puts a value at its key; a key that is there already keeps its place. -/
def putEntry (key value : String) : List (String × String) → List (String × String)
  | [] => [(key, value)]
  | entry :: entries =>
    if entry.1 = key then (key, value) :: entries else entry :: putEntry key value entries

/-- Reads an object of texts with any keys. Of a key that comes twice the last value counts. -/
def dictionary (canOpen : Bool) : Reader (List (String × String)) where
  read s :=
    match dropBlanks s with
    | [] => .error .unfinished
    | c :: rest =>
      if c = '\x7b' then
        if canOpen then
          object (fun entries key => .ok (text.map fun value => putEntry key value entries)) [] rest
        else .error .malformed
      else .error (mismatch "a map" (c :: rest))
  shorter := by
    intro s a rest h
    split at h
    · cases h
    next hblanks =>
      have hlt := length_of_dropBlanks hblanks
      split at h
      · split at h
        · exact Nat.lt_trans (length_of_object h) hlt
        · cases h
      · cases h

/-- The name of a variant behind the opening brace of its object form. -/
def variantObject (s : List Char) : Outcome String :=
  match dropBlanks s with
  | [] => .error .unfinished
  | c :: rest =>
    if c = '"' then
      match string [] rest with
      | .error fault => .error fault
      | .ok (cs, rest) =>
        match colon rest with
        | .error fault => .error fault
        | .ok rest =>
          match unit.read rest with
          | .error fault => .error fault
          | .ok (_, rest) =>
            match dropBlanks rest with
            | [] => .error .unfinished
            | c :: rest =>
              if c = '\x7d' then .ok (String.ofList cs, rest) else .error .malformed
    else .error .malformed

private theorem length_of_variantObject {s rest : List Char} {name : String}
    (h : variantObject s = .ok (name, rest)) : rest.length < s.length := by
  unfold variantObject at h
  split at h
  · cases h
  next hblanks =>
    have := length_of_dropBlanks hblanks
    split at h
    · split at h
      · cases h
      next hstring =>
        have := length_of_string hstring
        split at h
        · cases h
        next hcolon =>
          have := length_of_colon hcolon
          split at h
          · cases h
          next hunit =>
            have := unit.shorter hunit
            split at h
            · cases h
            next hend =>
              have := length_of_dropBlanks hend
              split at h
              · cases h
                omega
              · cases h
    · cases h

/-- Reads the name of a variant without content: a text, or an object with that one key and
`null`. -/
def variant (canOpen : Bool) : Reader String where
  read s :=
    match dropBlanks s with
    | [] => .error .unfinished
    | c :: rest =>
      if c = '"' then text.read (c :: rest)
      else if c = '\x7b' then if canOpen then variantObject rest else .error .malformed
      else .error .malformed
  shorter := by
    intro s a rest h
    split at h
    · cases h
    next hblanks =>
      have hlt := length_of_dropBlanks hblanks
      split at h
      · exact Nat.lt_of_lt_of_le (text.shorter h) hlt
      · split at h
        · split at h
          · exact Nat.lt_trans (length_of_variantObject h) hlt
          · cases h
        · cases h

end Reader
end ResultLayout
