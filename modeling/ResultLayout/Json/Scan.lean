import ResultLayout.Json.Fault
/-!
# The words of JSON

Blanks, key words, strings and numbers, each read from the front of a text. Strings and numbers are
read in two ways. Where their value matters a string must not hold half a surrogate pair and a
number must not exceed the greatest double; where they are skipped their form alone matters.
-/
namespace ResultLayout.Scan

def isBlank (c : Char) : Bool := c == ' ' || c == '\n' || c == '\t' || c == '\r'

def dropBlanks (s : List Char) : List Char := s.dropWhile isBlank

private theorem length_dropBlanks_le (s : List Char) : (dropBlanks s).length ≤ s.length :=
  (List.dropWhile_sublist _).length_le

theorem length_of_dropBlanks {s rest : List Char} {c : Char} (h : dropBlanks s = c :: rest) :
    rest.length < s.length := by
  have hle := length_dropBlanks_le s
  rw [h] at hle
  exact hle

/-- What is left behind the rest of a key word. -/
def word : List Char → List Char → Except Fault (List Char)
  | [], s => .ok s
  | _ :: _, [] => .error .unfinished
  | w :: ws, c :: s => if c = w then word ws s else .error .malformed

theorem length_of_word {ws s rest : List Char} (h : word ws s = .ok rest) :
    rest.length ≤ s.length := by
  induction ws generalizing s with
  | nil => cases h; exact Nat.le_refl _
  | cons w ws ih =>
    cases s with
    | nil => cases h
    | cons c s =>
      simp only [word] at h
      split at h
      · exact Nat.le_succ_of_le (ih h)
      · cases h

/-! ## Strings -/

def hexValue? (c : Char) : Option Nat :=
  if c.isDigit then some (c.toNat - '0'.toNat)
  else if 'a' ≤ c ∧ c ≤ 'f' then some (c.toNat - 'a'.toNat + 10)
  else if 'A' ≤ c ∧ c ≤ 'F' then some (c.toNat - 'A'.toNat + 10)
  else none

/-- The number written by four hexadecimal digits. A text of less than four bytes is unfinished
whatever it holds. -/
def hexUnit : List Char → Outcome Nat
  | a :: b :: c :: d :: rest =>
    match hexValue? a, hexValue? b, hexValue? c, hexValue? d with
    | some a, some b, some c, some d => .ok (((a * 16 + b) * 16 + c) * 16 + d, rest)
    | _, _, _, _ => .error .malformed
  | short =>
    if (String.ofList short).utf8ByteSize < 4 then .error .unfinished else .error .malformed

private theorem length_of_hexUnit {s rest : List Char} {n : Nat} (h : hexUnit s = .ok (n, rest)) :
    rest.length < s.length := by
  unfold hexUnit at h
  split at h
  · split at h
    · cases h
      simp only [List.length_cons]
      omega
    · cases h
  · split at h <;> cases h

def isLeadingSurrogate (n : Nat) : Bool := 0xD800 ≤ n && n ≤ 0xDBFF

def isTrailingSurrogate (n : Nat) : Bool := 0xDC00 ≤ n && n ≤ 0xDFFF

/-- The character of a surrogate pair. -/
def surrogatePair (leading trailing : Nat) : Char :=
  Char.ofNat (0x10000 + (leading - 0xD800) * 0x400 + (trailing - 0xDC00))

/-- The character written by a number escape, behind its `u`. A surrogate needs its partner. -/
def unicodeEscape (s : List Char) : Outcome Char :=
  match hexUnit s with
  | .error fault => .error fault
  | .ok (n, rest) =>
    if isTrailingSurrogate n then .error .malformed
    else if isLeadingSurrogate n then
      match rest with
      | [] | ['\\'] => .error .unfinished
      | '\\' :: 'u' :: second =>
        match hexUnit second with
        | .error fault => .error fault
        | .ok (m, rest) =>
          if isTrailingSurrogate m then .ok (surrogatePair n m, rest) else .error .malformed
      | _ => .error .malformed
    else .ok (Char.ofNat n, rest)

/-- The character that a short escape stands for. -/
def shortEscape? (c : Char) : Option Char :=
  if c = '"' ∨ c = '\\' ∨ c = '/' then some c
  else if c = 'b' then some '\x08'
  else if c = 'f' then some '\x0c'
  else if c = 'n' then some '\n'
  else if c = 'r' then some '\r'
  else if c = 't' then some '\t'
  else none

/-- The character written by an escape, behind its backslash. -/
def escape : List Char → Outcome Char
  | [] => .error .unfinished
  | c :: s =>
    if c = 'u' then unicodeEscape s
    else
      match shortEscape? c with
      | some escaped => .ok (escaped, s)
      | none => .error .malformed

private theorem length_of_unicodeEscape {s rest : List Char} {c : Char}
    (h : unicodeEscape s = .ok (c, rest)) : rest.length < s.length := by
  unfold unicodeEscape at h
  split at h
  · cases h
  next n rest' hn =>
    have hlen := length_of_hexUnit hn
    split at h
    · cases h
    · split at h
      · split at h
        · cases h
        · cases h
        · split at h
          · cases h
          next hm =>
            have hlen' := length_of_hexUnit hm
            split at h
            · simp only [Except.ok.injEq, Prod.mk.injEq] at h
              obtain ⟨_, rfl⟩ := h
              simp only [List.length_cons] at hlen
              omega
            · cases h
        · cases h
      · simp only [Except.ok.injEq, Prod.mk.injEq] at h
        obtain ⟨_, rfl⟩ := h
        exact hlen

private theorem length_of_escape {s rest : List Char} {c : Char} (h : escape s = .ok (c, rest)) :
    rest.length < s.length := by
  cases s with
  | nil => cases h
  | cons a s =>
    simp only [escape] at h
    split at h
    · have := length_of_unicodeEscape h
      simp only [List.length_cons]
      omega
    · split at h
      · cases h
        simp
      · cases h

/-- The characters of a string up to its closing quote, behind those already read. -/
def string (read : List Char) (s : List Char) : Outcome (List Char) :=
  match s with
  | [] => .error .unfinished
  | c :: s =>
    if c = '"' then .ok (read.reverse, s)
    else if c = '\\' then
      match _h : escape s with
      | .error fault => .error fault
      | .ok (escaped, rest) => string (escaped :: read) rest
    else if c.toNat < 0x20 then .error .malformed
    else string (c :: read) s
termination_by s.length
decreasing_by
  · have := length_of_escape _h
    simp only [List.length_cons]
    omega
  · simp

theorem length_of_string {read s text rest : List Char} (h : string read s = .ok (text, rest)) :
    rest.length < s.length := by
  fun_induction string read s with
  | case1 => cases h
  | case2 read s => cases h; simp
  | case3 => cases h
  | case4 read s escaped rest' hescape _ ih =>
    have := ih h
    have := length_of_escape hescape
    simp only [List.length_cons]
    omega
  | case5 => cases h
  | case6 read c s _ _ _ ih =>
    have := ih h
    simp only [List.length_cons]
    omega

/-- What is left behind a string, up to its closing quote. -/
def skipString (s : List Char) : Except Fault (List Char) :=
  match s with
  | [] => .error .unfinished
  | c :: s =>
    if c = '"' then .ok s
    else if c = '\\' then
      match s with
      | [] => .error .unfinished
      | e :: s =>
        if e = 'u' then
          match _h : hexUnit s with
          | .error fault => .error fault
          | .ok (_, rest) => skipString rest
        else if (shortEscape? e).isSome then skipString s
        else .error .malformed
    else if c.toNat < 0x20 then .error .malformed
    else skipString s
termination_by s.length
decreasing_by
  · have := length_of_hexUnit _h
    simp only [List.length_cons]
    omega
  · simp only [List.length_cons]
    omega
  · simp

theorem length_of_skipString {s rest : List Char} (h : skipString s = .ok rest) :
    rest.length < s.length := by
  fun_induction skipString s with
  | case1 => cases h
  | case2 => cases h; simp
  | case3 => cases h
  | case4 => cases h
  | case5 s _ rest' hhex _ ih =>
    have := ih h
    have := length_of_hexUnit hhex
    simp only [List.length_cons]
    omega
  | case6 e s _ _ _ ih =>
    have := ih h
    simp only [List.length_cons]
    omega
  | case7 => cases h
  | case8 => cases h
  | case9 c s _ _ _ ih =>
    have := ih h
    simp only [List.length_cons]
    omega

end ResultLayout.Scan
