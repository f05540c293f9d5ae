import ResultLayout.Json.Number
/-!
# Skipped JSON values

A value that nothing asks for is skipped, with the containers around the place kept on a stack, so
that it may nest without limit. It still has to be JSON.
-/
namespace ResultLayout.Scan

inductive Container where
  | array
  | object
deriving DecidableEq, Repr

def Container.closing : Container → Char
  | array => ']'
  | object => '\x7d'

/-- Where a walk through a skipped value stands. -/
inductive SkipPlace where
  /-- A value is due. -/
  | value
  /-- Behind the opening bracket of a container. -/
  | opened (container : Container)
  /-- Behind a value. -/
  | closed
deriving DecidableEq, Repr

def SkipPlace.rank : SkipPlace → Nat
  | opened _ => 1
  | value | closed => 0

/-- What is left behind a colon. -/
def colon (s : List Char) : Except Fault (List Char) :=
  match dropBlanks s with
  | [] => .error .unfinished
  | c :: s => if c = ':' then .ok s else .error .malformed

theorem length_of_colon {s rest : List Char} (h : colon s = .ok rest) :
    rest.length < s.length := by
  unfold colon at h
  split at h
  · cases h
  next hblanks =>
    split at h
    · cases h
      exact length_of_dropBlanks hblanks
    · cases h

/-- What is left behind a key and its colon. -/
def skipKey (s : List Char) : Except Fault (List Char) :=
  match dropBlanks s with
  | [] => .error .unfinished
  | c :: s =>
    if c = '"' then
      match skipString s with
      | .error fault => .error fault
      | .ok rest => colon rest
    else .error .malformed

private theorem length_of_skipKey {s rest : List Char} (h : skipKey s = .ok rest) :
    rest.length < s.length := by
  unfold skipKey at h
  split at h
  · cases h
  next hblanks =>
    split at h
    · split at h
      · cases h
      next hskip =>
        have h1 := length_of_skipString hskip
        have h2 := length_of_colon h
        have h3 := length_of_dropBlanks hblanks
        omega
    · cases h

/-- What is left behind a value that is no container. -/
def skipScalar : List Char → Except Fault (List Char)
  | [] => .error .unfinished
  | c :: s =>
    if c = 'n' then word ['u', 'l', 'l'] s
    else if c = 't' then word ['r', 'u', 'e'] s
    else if c = 'f' then word ['a', 'l', 's', 'e'] s
    else if c = '"' then skipString s
    else if c = '-' then skipNumber s
    else skipNumber (c :: s)

private theorem length_of_skipScalar {s rest : List Char} (h : skipScalar s = .ok rest) :
    rest.length < s.length := by
  cases s with
  | nil => cases h
  | cons c s =>
    simp only [skipScalar] at h
    split at h
    · exact Nat.lt_succ_of_le (length_of_word h)
    · split at h
      · exact Nat.lt_succ_of_le (length_of_word h)
      · split at h
        · exact Nat.lt_succ_of_le (length_of_word h)
        · split at h
          · exact Nat.lt_succ_of_lt (length_of_skipString h)
          · split at h
            · exact Nat.lt_succ_of_lt (length_of_skipNumber h)
            · exact length_of_skipNumber h

/-- What is left behind a skipped value; `around` are the containers that are open, the innermost
first. -/
def skipFrom (place : SkipPlace) (around : List Container) (s : List Char) :
    Except Fault (List Char) :=
  match place, around with
  | .value, around =>
    match _h : dropBlanks s with
    | [] => .error .unfinished
    | c :: rest =>
      if c = '[' then skipFrom (.opened .array) around rest
      else if c = '\x7b' then skipFrom (.opened .object) around rest
      else
        match _hs : skipScalar (c :: rest) with
        | .error fault => .error fault
        | .ok rest => skipFrom .closed around rest
  | .opened container, around =>
    match _h : dropBlanks s with
    | [] => .error .unfinished
    | c :: rest =>
      if c = container.closing then skipFrom .closed around rest
      else
        match container with
        | .array => skipFrom .value (.array :: around) s
        | .object =>
          match _hs : skipKey s with
          | .error fault => .error fault
          | .ok rest => skipFrom .value (.object :: around) rest
  | .closed, [] => .ok s
  | .closed, container :: around =>
    match _h : dropBlanks s with
    | [] => .error .unfinished
    | c :: rest =>
      if c = container.closing then skipFrom .closed around rest
      else if c = ',' then
        match container with
        | .array => skipFrom .value (.array :: around) rest
        | .object =>
          match _hs : skipKey rest with
          | .error fault => .error fault
          | .ok rest => skipFrom .value (.object :: around) rest
      else .error .malformed
termination_by 2 * s.length + place.rank
decreasing_by
  all_goals try have hblanks := length_of_dropBlanks _h
  all_goals try have hscalar := length_of_skipScalar _hs
  all_goals try have hkey := length_of_skipKey _hs
  all_goals try simp only [List.length_cons] at hscalar
  all_goals simp only [SkipPlace.rank]
  all_goals omega

/-- What is left behind a skipped value. -/
def skipValue (s : List Char) : Except Fault (List Char) := skipFrom .value [] s

private theorem length_of_skipFrom {place : SkipPlace} {around : List Container}
    {s rest : List Char} (h : skipFrom place around s = .ok rest) :
    rest.length ≤ s.length ∧ (place = .value → rest.length < s.length) := by
  fun_induction skipFrom place around s with
  | case1 => cases h
  | case2 s around rest' hblanks ih =>
    have := (ih h).1
    have := length_of_dropBlanks hblanks
    exact ⟨by omega, fun _ => by omega⟩
  | case3 s around rest' hblanks _ ih =>
    have := (ih h).1
    have := length_of_dropBlanks hblanks
    exact ⟨by omega, fun _ => by omega⟩
  | case4 => cases h
  | case5 s around c rest' hblanks _ _ rest'' hscalar ih =>
    have := (ih h).1
    have := length_of_skipScalar hscalar
    have hlt := length_of_dropBlanks hblanks
    simp only [List.length_cons] at this
    exact ⟨by omega, fun _ => by omega⟩
  | case6 => cases h
  | case7 s container around rest' hblanks ih =>
    have := (ih h).1
    have := length_of_dropBlanks hblanks
    exact ⟨by omega, fun _ => by omega⟩
  | case8 s around c rest' hblanks _ ih => exact ⟨(ih h).1, fun hplace => by cases hplace⟩
  | case9 => cases h
  | case10 s around c rest' hblanks rest'' hkey _ ih =>
    have := (ih h).1
    have := length_of_skipKey hkey
    exact ⟨by omega, fun _ => by omega⟩
  | case11 => cases h; exact ⟨Nat.le_refl _, fun hplace => by cases hplace⟩
  | case12 => cases h
  | case13 s container around rest' hblanks ih =>
    have := (ih h).1
    have := length_of_dropBlanks hblanks
    exact ⟨by omega, fun _ => by omega⟩
  | case14 s around rest' hblanks _ ih =>
    have := (ih h).1
    have := length_of_dropBlanks hblanks
    exact ⟨by omega, fun _ => by omega⟩
  | case15 => cases h
  | case16 s around rest' rest'' hkey hblanks _ ih =>
    have := (ih h).1
    have := length_of_dropBlanks hblanks
    have := length_of_skipKey hkey
    exact ⟨by omega, fun _ => by omega⟩
  | case17 => cases h

theorem length_of_skipValue {s rest : List Char} (h : skipValue s = .ok rest) :
    rest.length < s.length :=
  (length_of_skipFrom h).2 rfl

end ResultLayout.Scan
