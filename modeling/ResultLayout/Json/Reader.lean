import ResultLayout.Json.Skip
/-!
# Readers of JSON values

A reader takes one value of a fixed format from the front of a text. It always takes something, so
that a loop of readers comes to an end.

Containers may be nested only so deeply. A reader of a container is given what it needs for the
items only if the container may still be opened; if not, its opening bracket is a fault.
-/
namespace ResultLayout

structure Reader (α : Type) where
  read : List Char → Outcome α
  shorter : ∀ {s : List Char} {a : α} {rest : List Char},
    read s = .ok (a, rest) → rest.length < s.length

namespace Reader
open Scan

variable {α β : Type}

/-- The value of a whole text. -/
def readAll (reader : Reader α) (text : String) : Except Fault α :=
  match reader.read text.toList with
  | .error fault => .error fault
  | .ok (a, rest) => if (dropBlanks rest).isEmpty then .ok a else .error .malformed

/-- Reads a value and applies a function to it. -/
def map (f : α → β) (reader : Reader α) : Reader β where
  read s :=
    match reader.read s with
    | .error fault => .error fault
    | .ok (a, rest) => .ok (f a, rest)
  shorter := by
    intro s b rest h
    split at h
    · cases h
    next hread => cases h; exact reader.shorter hread

/-- A reader that is made only when it is used. -/
def delay (reader : Unit → Reader α) : Reader α where
  read s := (reader ()).read s
  shorter h := (reader ()).shorter h

/-- Skips any value. -/
def ignored : Reader Unit where
  read s :=
    match skipValue s with
    | .error fault => .error fault
    | .ok rest => .ok ((), rest)
  shorter := by
    intro s a rest h
    split at h
    · cases h
    next hskip => cases h; exact length_of_skipValue hskip

def text : Reader String where
  read s :=
    match dropBlanks s with
    | [] => .error .unfinished
    | c :: rest =>
      if c = '"' then
        match string [] rest with
        | .error fault => .error fault
        | .ok (cs, rest) => .ok (String.ofList cs, rest)
      else .error (mismatch "a string" (c :: rest))
  shorter := by
    intro s a rest h
    split at h
    · cases h
    next hblanks =>
      split at h
      · split at h
        · cases h
        next hstring =>
          cases h
          exact Nat.lt_trans (length_of_string hstring) (length_of_dropBlanks hblanks)
      · cases h

/-- Reads `null` or, with the given reader, what stands there instead. -/
def orNull (reader : Reader α) : Reader (Option α) where
  read s :=
    match dropBlanks s with
    | [] => .error .unfinished
    | c :: rest =>
      if c = 'n' then
        match word ['u', 'l', 'l'] rest with
        | .error fault => .error fault
        | .ok rest => .ok (none, rest)
      else
        match reader.read (c :: rest) with
        | .error fault => .error fault
        | .ok (a, rest) => .ok (some a, rest)
  shorter := by
    intro s a rest h
    split at h
    · cases h
    next hblanks =>
      have hlt := length_of_dropBlanks hblanks
      split at h
      · split at h
        · cases h
        next hword =>
          cases h
          exact Nat.lt_of_le_of_lt (length_of_word hword) hlt
      · split at h
        · cases h
        next hread =>
          cases h
          have := reader.shorter hread
          simp only [List.length_cons] at this
          omega

/-- Reads the rest of a key word behind its first letter and gives a value for it. -/
def keyWord (letters : List Char) (a : α) (s : List Char) : Outcome α :=
  match word letters s with
  | .error fault => .error fault
  | .ok rest => .ok (a, rest)

private theorem length_of_keyWord {letters s rest : List Char} {a b : α}
    (h : keyWord letters a s = .ok (b, rest)) : rest.length ≤ s.length := by
  unfold keyWord at h
  split at h
  · cases h
  next hword => cases h; exact length_of_word hword

def flag : Reader Bool where
  read s :=
    match dropBlanks s with
    | [] => .error .unfinished
    | c :: rest =>
      if c = 't' then keyWord ['r', 'u', 'e'] true rest
      else if c = 'f' then keyWord ['a', 'l', 's', 'e'] false rest
      else .error (mismatch "a boolean" (c :: rest))
  shorter := by
    intro s a rest h
    split at h
    · cases h
    next hblanks =>
      have hlt := length_of_dropBlanks hblanks
      split at h
      · exact Nat.lt_of_le_of_lt (length_of_keyWord h) hlt
      · split at h
        · exact Nat.lt_of_le_of_lt (length_of_keyWord h) hlt
        · cases h

/-- Reads `null`. -/
def unit : Reader Unit where
  read s :=
    match dropBlanks s with
    | [] => .error .unfinished
    | c :: rest =>
      if c = 'n' then keyWord ['u', 'l', 'l'] () rest else .error (mismatch "unit" (c :: rest))
  shorter := by
    intro s a rest h
    split at h
    · cases h
    next hblanks =>
      split at h
      · exact Nat.lt_of_le_of_lt (length_of_keyWord h) (length_of_dropBlanks hblanks)
      · cases h

/-! ## Arrays -/

/-- The items behind one that has been read. -/
def moreItems (item : Reader α) (s : List Char) : Outcome (List α) :=
  match _h : dropBlanks s with
  | [] => .error .unfinished
  | c :: rest =>
    if c = ']' then .ok ([], rest)
    else if c = ',' then
      match dropBlanks rest with
      | [] => .error .unfinished
      | d :: _ =>
        if d = ']' then .error .malformed
        else
          match _hi : item.read rest with
          | .error fault => .error fault
          | .ok (a, rest) =>
            match moreItems item rest with
            | .error fault => .error fault
            | .ok (as, rest) => .ok (a :: as, rest)
    else .error .malformed
termination_by s.length
decreasing_by
  have := length_of_dropBlanks _h
  have := item.shorter _hi
  omega

private theorem length_of_moreItems {item : Reader α} {s rest : List Char} {as : List α}
    (h : moreItems item s = .ok (as, rest)) : rest.length < s.length := by
  fun_induction moreItems item s generalizing as rest with
  | case1 => cases h
  | case2 s rest' hblanks =>
    cases h
    exact length_of_dropBlanks hblanks
  | case3 => cases h
  | case4 => cases h
  | case5 => cases h
  | case6 => cases h
  | case7 s rest' d tail _ _ a rest'' hitem as' rest''' hmore hblanks _ ih =>
    cases h
    have := length_of_dropBlanks hblanks
    have := item.shorter hitem
    have := ih hmore
    omega
  | case8 => cases h

/-- The items behind an opening bracket. -/
def items (item : Reader α) (s : List Char) : Outcome (List α) :=
  match dropBlanks s with
  | [] => .error .unfinished
  | c :: rest =>
    if c = ']' then .ok ([], rest)
    else
      match item.read s with
      | .error fault => .error fault
      | .ok (a, rest) =>
        match moreItems item rest with
        | .error fault => .error fault
        | .ok (as, rest) => .ok (a :: as, rest)

private theorem length_of_items {item : Reader α} {s rest : List Char} {as : List α}
    (h : items item s = .ok (as, rest)) : rest.length < s.length := by
  unfold items at h
  split at h
  · cases h
  next hblanks =>
    split at h
    · cases h
      exact length_of_dropBlanks hblanks
    · split at h
      · cases h
      next hitem =>
        split at h
        · cases h
        next hmore =>
          cases h
          exact Nat.lt_trans (length_of_moreItems hmore) (item.shorter hitem)

/-- Reads an array. -/
def list (wanted : String) (item : Option (Reader α)) : Reader (List α) where
  read s :=
    match dropBlanks s with
    | [] => .error .unfinished
    | c :: rest =>
      if c = '[' then
        match item with
        | none => .error .malformed
        | some item => items item rest
      else .error (mismatch wanted (c :: rest))
  shorter := by
    intro s as rest h
    split at h
    · cases h
    next hblanks =>
      split at h
      · split at h
        · cases h
        · exact Nat.lt_trans (length_of_items h) (length_of_dropBlanks hblanks)
      · cases h

/-! ## Objects -/

/-- The members of an object from a key on. `member` says, from what has been read and the next key,
how to read the value of that key. -/
def members {σ : Type} (member : σ → String → Except Fault (Reader σ)) (state : σ)
    (s : List Char) : Outcome σ :=
  match _h : dropBlanks s with
  | [] => .error .unfinished
  | c :: rest =>
    if c = '"' then
      match _hs : string [] rest with
      | .error fault => .error fault
      | .ok (key, rest) =>
        match member state (String.ofList key) with
        | .error fault => .error fault
        | .ok reader =>
          match _hc : colon rest with
          | .error fault => .error fault
          | .ok rest =>
            match _hr : reader.read rest with
            | .error fault => .error fault
            | .ok (state, rest) =>
              match _hb : dropBlanks rest with
              | [] => .error .unfinished
              | c :: rest =>
                if c = '\x7d' then .ok (state, rest)
                else if c = ',' then members member state rest
                else .error .malformed
    else .error .malformed
termination_by s.length
decreasing_by
  have := length_of_dropBlanks _h
  have := length_of_string _hs
  have := length_of_colon _hc
  have := reader.shorter _hr
  have := length_of_dropBlanks _hb
  omega

private theorem length_of_members {σ : Type} {member : σ → String → Except Fault (Reader σ)}
    {state final : σ} {s rest : List Char} (h : members member state s = .ok (final, rest)) :
    rest.length < s.length := by
  fun_induction members member state s with
  | case1 => cases h
  | case2 => cases h
  | case3 => cases h
  | case4 => cases h
  | case5 => cases h
  | case6 => cases h
  | case7 state s r1 key r2 hkey reader _ r3 hcolon a r4 hread r5 hblanks hend =>
    cases h
    have := length_of_dropBlanks hblanks
    have := length_of_string hkey
    have := length_of_colon hcolon
    have := reader.shorter hread
    have := length_of_dropBlanks hend
    omega
  | case8 state s r1 key r2 hkey reader _ r3 hcolon a r4 hread r5 hblanks hend _ ih =>
    have := length_of_dropBlanks hblanks
    have := length_of_string hkey
    have := length_of_colon hcolon
    have := reader.shorter hread
    have := length_of_dropBlanks hend
    have := ih h
    omega
  | case9 => cases h
  | case10 => cases h

/-- The members of an object behind its opening brace. -/
def object {σ : Type} (member : σ → String → Except Fault (Reader σ)) (state : σ)
    (s : List Char) : Outcome σ :=
  match dropBlanks s with
  | [] => .error .unfinished
  | c :: rest => if c = '\x7d' then .ok (state, rest) else members member state s

theorem length_of_object {σ : Type} {member : σ → String → Except Fault (Reader σ)}
    {state final : σ} {s rest : List Char} (h : object member state s = .ok (final, rest)) :
    rest.length < s.length := by
  unfold object at h
  split at h
  · cases h
  next hblanks =>
    split at h
    · cases h
      exact length_of_dropBlanks hblanks
    · exact length_of_members h

end Reader
end ResultLayout
