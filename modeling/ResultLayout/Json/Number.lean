import ResultLayout.Json.Scan
/-!
# Numbers in JSON documents

No format of this library has a number in it. A number is therefore either skipped, and then only
its form is checked, or it stands where something else is due, and then its value is needed for the
message. Whole numbers of 64 bits are told apart from all others, which are rounded to doubles.
-/
namespace ResultLayout.Scan

def isDigit (c : Char) : Bool := c.isDigit

def digitsValue (digits : List Char) : Nat :=
  digits.foldl (fun value c => value * 10 + (c.toNat - '0'.toNat)) 0

def isExponentMark (c : Char) : Bool := c == 'e' || c == 'E'

def isSign (c : Char) : Bool := c == '+' || c == '-'

/-! ## Skipped numbers -/

/-- What is left behind an optional exponent. -/
def skipExponent : List Char → Except Fault (List Char)
  | [] => .ok []
  | c :: s =>
    if isExponentMark c then
      let unsigned :=
        match s with
        | sign :: rest => if isSign sign then rest else s
        | [] => []
      match unsigned with
      | d :: rest => if isDigit d then .ok (rest.dropWhile isDigit) else .error .malformed
      | [] => .error .malformed
    else .ok (c :: s)

/-- What is left behind an optional fraction and an optional exponent. -/
def skipFraction : List Char → Except Fault (List Char)
  | [] => .ok []
  | c :: s =>
    if c = '.' then
      match s with
      | d :: rest => if isDigit d then skipExponent (rest.dropWhile isDigit) else .error .malformed
      | [] => .error .malformed
    else skipExponent (c :: s)

/-- What is left behind a number without its sign. A zero is not followed by a digit. -/
def skipNumber : List Char → Except Fault (List Char)
  | [] => .error .malformed
  | c :: s =>
    if c = '0' then
      match s with
      | d :: rest => if isDigit d then .error .malformed else skipFraction (d :: rest)
      | [] => .ok []
    else if isDigit c then skipFraction (s.dropWhile isDigit)
    else .error .malformed

private theorem length_of_skipExponent {s rest : List Char} (h : skipExponent s = .ok rest) :
    rest.length ≤ s.length := by
  unfold skipExponent at h
  split at h
  · cases h; exact Nat.le_refl _
  next c s =>
    split at h
    · dsimp only at h
      split at h
      next d rest' hunsigned =>
        split at h
        · simp only [Except.ok.injEq] at h
          have hdrop := (List.dropWhile_sublist isDigit (l := rest')).length_le
          have hle : (d :: rest').length ≤ s.length := by
            rw [← hunsigned]
            split
            · split <;> simp
            · exact Nat.le_refl _
          simp only [List.length_cons, ← h] at hle ⊢
          omega
        · cases h
      · cases h
    · cases h; exact Nat.le_refl _

private theorem length_of_skipFraction {s rest : List Char} (h : skipFraction s = .ok rest) :
    rest.length ≤ s.length := by
  unfold skipFraction at h
  split at h
  · cases h; exact Nat.le_refl _
  · split at h
    · split at h
      next d rest' =>
        split at h
        · have := length_of_skipExponent h
          have hdrop := (List.dropWhile_sublist isDigit (l := rest')).length_le
          simp only [List.length_cons]
          omega
        · cases h
      · cases h
    · exact length_of_skipExponent h

theorem length_of_skipNumber {s rest : List Char} (h : skipNumber s = .ok rest) :
    rest.length < s.length := by
  unfold skipNumber at h
  split at h
  · cases h
  next c s =>
    split at h
    · split at h
      · split at h
        · cases h
        · have := length_of_skipFraction h
          simp only [List.length_cons] at this ⊢
          omega
      · cases h; simp
    · split at h
      · have := length_of_skipFraction h
        have hdrop := (List.dropWhile_sublist isDigit (l := s)).length_le
        simp only [List.length_cons]
        omega
      · cases h

/-! ## Described numbers -/

/-- The greatest whole number that is kept exactly. -/
def greatestWhole : Nat := Nat.pow 2 64 - 1

/-- The digits that extend `value` to a number that is still kept exactly, with the value they
give, and the digits left over. -/
def takeWhole (value : Nat) : List Char → Nat × List Char
  | [] => (value, [])
  | d :: digits =>
    let extended := value * 10 + (d.toNat - '0'.toNat)
    if extended ≤ greatestWhole then takeWhole extended digits else (value, d :: digits)

def describeFloat (negative : Bool) (digits : Nat) (exponent : Int) : Except Fault Found :=
  match Binary64.ofDecimal? digits exponent with
  | some value => .ok (.float negative value)
  | none => .error .malformed

/-- Describes a number from its exponent mark on. -/
def describeExponent (negative : Bool) (digits : Nat) (exponent : Int) (s : List Char) :
    Except Fault Found :=
  let (minus, unsigned) :=
    match s with
    | sign :: rest => if isSign sign then (sign == '-', rest) else (false, s)
    | [] => (false, [])
  match unsigned with
  | [] => .error .unfinished
  | d :: rest =>
    if isDigit d then
      let power : Int := digitsValue (d :: rest.takeWhile isDigit)
      describeFloat negative digits (if minus then exponent - power else exponent + power)
    else .error .malformed

/-- Describes a number behind its decimal point. Digits beyond those kept exactly do not count. -/
def describeFraction (negative : Bool) (digits : Nat) (exponent : Int) (s : List Char) :
    Except Fault Found :=
  let fraction := s.takeWhile isDigit
  let rest := s.dropWhile isDigit
  if fraction.isEmpty then .error (if rest.isEmpty then .unfinished else .malformed)
  else
    let (kept, left) := takeWhole digits fraction
    let exponent := exponent - (fraction.length - left.length : Nat)
    match rest with
    | c :: s =>
      if isExponentMark c then describeExponent negative kept exponent s
      else describeFloat negative kept exponent
    | [] => describeFloat negative kept exponent

/-- Describes a number without its sign. Of more digits than are kept exactly the rest counts as
zeros. A negative zero, and a negative number beyond 64 bits, is a floating point number. -/
def describeNumber (negative : Bool) (s : List Char) : Except Fault Found :=
  match s with
  | [] => .error .unfinished
  | c :: s =>
    if !isDigit c then .error .malformed
    else if c = '0' ∧ (s.takeWhile isDigit).length ≠ 0 then .error .malformed
    else
      let (digits, left) := takeWhole 0 (c :: s.takeWhile isDigit)
      match s.dropWhile isDigit with
      | c :: s =>
        if c = '.' then describeFraction negative digits left.length s
        else if isExponentMark c then describeExponent negative digits left.length s
        else whole digits left.length
      | [] => whole digits left.length
where
  whole (digits dropped : Nat) : Except Fault Found :=
    if dropped ≠ 0 then describeFloat negative digits dropped
    else if !negative then .ok (.integer digits)
    else if digits = 0 ∨ Nat.pow 2 63 < digits then describeFloat true digits 0
    else .ok (.integer (-digits))

/-- The fault of a value that stands where another one was wanted. A string or number is read to its
end first, a container only up to its bracket. -/
def mismatch (wanted : String) : List Char → Fault
  | [] => .unfinished
  | c :: s =>
    if c = 'n' then
      match word ['u', 'l', 'l'] s with
      | .ok _ => .mismatch .null wanted
      | .error fault => fault
    else if c = 't' then
      match word ['r', 'u', 'e'] s with
      | .ok _ => .mismatch (.bool true) wanted
      | .error fault => fault
    else if c = 'f' then
      match word ['a', 'l', 's', 'e'] s with
      | .ok _ => .mismatch (.bool false) wanted
      | .error fault => fault
    else if c = '"' then
      match string [] s with
      | .ok (text, _) => .mismatch (.string (String.ofList text)) wanted
      | .error fault => fault
    else if c = '[' then .mismatch .sequence wanted
    else if c = '\x7b' then .mismatch .map wanted
    else if c = '-' ∨ isDigit c then
      match describeNumber (c == '-') (if c = '-' then s else c :: s) with
      | .ok found => .mismatch found wanted
      | .error fault => fault
    else .malformed

end ResultLayout.Scan
