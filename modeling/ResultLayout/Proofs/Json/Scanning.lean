import ResultLayout.Json.Skip
import ResultLayout.Proofs.Json.Grammar
/-!
# Scanning what the grammar writes

Each scanner takes exactly a text of its kind from the front of what it is given. Only a number has
to know what follows it: it ends where no further part of a number comes.
-/
namespace ResultLayout.Scan
open Written

section Gap

theorem isBlank_eq_false_iff {c : Char} :
    isBlank c = false ↔ c ≠ ' ' ∧ c ≠ '\n' ∧ c ≠ '\t' ∧ c ≠ '\r' := by
  simp only [isBlank, Bool.or_eq_false_iff, beq_eq_false_iff_ne, and_assoc]

theorem gap_nil : Gap [] := by rintro _ ⟨⟩

theorem isBlank_of_gap {gap : List Char} (h : Gap gap) : ∀ c ∈ gap, isBlank c = true := by
  intro c hc
  rcases h c hc with rfl | rfl | rfl | rfl <;> rfl

theorem dropBlanks_gap {gap : List Char} (hgap : Gap gap) (s : List Char) :
    dropBlanks (gap ++ s) = dropBlanks s :=
  List.dropWhile_append_of_pos (isBlank_of_gap hgap)

private theorem dropBlanks_cons {c : Char} (hc : isBlank c = false) (s : List Char) :
    dropBlanks (c :: s) = c :: s := by
  rw [dropBlanks, List.dropWhile_cons, hc]
  rfl

theorem dropBlanks_gap_cons {gap : List Char} {c : Char} (hgap : Gap gap) (hc : isBlank c = false)
    (s : List Char) : dropBlanks (gap ++ c :: s) = c :: s := by
  rw [dropBlanks_gap hgap, dropBlanks_cons hc]

theorem colon_gap {gap : List Char} (hgap : Gap gap) (s : List Char) :
    colon (gap ++ ':' :: s) = .ok s := by
  rw [colon, dropBlanks_gap_cons hgap rfl]
  rfl

end Gap

section Strings

private theorem hexValue?_getElem? :
    ∀ n < 16, "0123456789abcdef".toList[n]?.bind hexValue? = some n ∧
      "0123456789ABCDEF".toList[n]?.bind hexValue? = some n := by
  decide

theorem lt_of_hexDigit {n : Nat} {c : Char} (h : HexDigit n c) : n < 16 := by
  rcases h with h | h <;> exact (List.getElem?_eq_some_iff.mp h).1

private theorem hexValue?_of_hexDigit {n : Nat} {c : Char} (h : HexDigit n c) :
    hexValue? c = some n := by
  obtain ⟨hlower, hupper⟩ := hexValue?_getElem? n (lt_of_hexDigit h)
  rcases h with h | h
  · simpa only [h, Option.bind_some] using hlower
  · simpa only [h, Option.bind_some] using hupper

private theorem hexUnit_append {n : Nat} {digits : List Char} (h : HexUnit n digits)
    (s : List Char) :
    hexUnit (digits ++ s) = .ok (n, s) := by
  cases h with
  | digits h₃ h₂ h₁ h₀ =>
    simp only [List.cons_append, List.nil_append, hexUnit, hexValue?_of_hexDigit h₃,
      hexValue?_of_hexDigit h₂, hexValue?_of_hexDigit h₁, hexValue?_of_hexDigit h₀]

private theorem shortEscape?_of_mem {letter c : Char} (h : (letter, c) ∈ shortEscapes) :
    letter ≠ 'u' ∧ shortEscape? letter = some c := by
  simp only [shortEscapes, List.mem_cons, Prod.mk.injEq, List.not_mem_nil, or_false] at h
  rcases h with ⟨rfl, rfl⟩ | ⟨rfl, rfl⟩ | ⟨rfl, rfl⟩ | ⟨rfl, rfl⟩ | ⟨rfl, rfl⟩ | ⟨rfl, rfl⟩ |
    ⟨rfl, rfl⟩ | ⟨rfl, rfl⟩ <;> decide

private theorem not_surrogate (c : Char) :
    isTrailingSurrogate c.toNat = false ∧ isLeadingSurrogate c.toNat = false := by
  have hvalid : c.toNat < 0xD800 ∨ 0xDFFF < c.toNat ∧ c.toNat < 0x110000 := c.valid
  simp only [isTrailingSurrogate, isLeadingSurrogate, Bool.and_eq_false_iff,
    decide_eq_false_iff_not]
  omega

private theorem unicodeEscape_unit {c : Char} {digits : List Char} (h : HexUnit c.toNat digits)
    (s : List Char) : unicodeEscape (digits ++ s) = .ok (c, s) := by
  obtain ⟨htrailing, hleading⟩ := not_surrogate c
  rw [unicodeEscape, hexUnit_append h]
  simp only [htrailing, hleading, Bool.false_eq_true, if_false, Char.ofNat_toNat]

private theorem unicodeEscape_surrogates {c : Char} {n : Nat} {leading trailing : List Char}
    (hc : c.toNat = 0x10000 + n) (hleading : HexUnit (0xD800 + n / 0x400) leading)
    (htrailing : HexUnit (0xDC00 + n % 0x400) trailing) (s : List Char) :
    unicodeEscape (leading ++ '\\' :: 'u' :: (trailing ++ s)) = .ok (c, s) := by
  have hn : n < 0x100000 := by
    have hvalid : c.toNat < 0xD800 ∨ 0xDFFF < c.toNat ∧ c.toNat < 0x110000 := c.valid
    omega
  have hfirst : isTrailingSurrogate (0xD800 + n / 0x400) = false ∧
      isLeadingSurrogate (0xD800 + n / 0x400) = true := by
    simp only [isTrailingSurrogate, isLeadingSurrogate, Bool.and_eq_false_iff,
      decide_eq_false_iff_not, Bool.and_eq_true, decide_eq_true_iff]
    omega
  have hsecond : isTrailingSurrogate (0xDC00 + n % 0x400) = true := by
    simp only [isTrailingSurrogate, Bool.and_eq_true, decide_eq_true_iff]
    omega
  have hpair : surrogatePair (0xD800 + n / 0x400) (0xDC00 + n % 0x400) = c := by
    have hnumber : 0x10000 + (0xD800 + n / 0x400 - 0xD800) * 0x400 +
        (0xDC00 + n % 0x400 - 0xDC00) = c.toNat := by
      omega
    rw [surrogatePair, hnumber, Char.ofNat_toNat]
  rw [unicodeEscape, hexUnit_append hleading]
  simp only [hfirst, Bool.false_eq_true, if_false, if_true, hexUnit_append htrailing, hsecond,
    hpair]

private theorem string_escape {c : Char} {text s : List Char} (h : escape text = .ok (c, s))
    (read : List Char) : string read ('\\' :: text) = string (c :: read) s := by
  rw [string, if_neg (by decide), if_pos rfl]
  split
  next hescape => rw [h] at hescape; cases hescape
  next hescape => rw [h] at hescape; cases hescape; rfl

private theorem escape_short {letter c : Char} (h : (letter, c) ∈ shortEscapes) (s : List Char) :
    escape (letter :: s) = .ok (c, s) := by
  obtain ⟨hletter, hshort⟩ := shortEscape?_of_mem h
  simp only [escape, if_neg hletter, hshort]

private theorem string_charText {c : Char} {text : List Char} (h : CharText c text)
    (read s : List Char) :
    string read (text ++ s) = string (c :: read) s := by
  cases h with
  | unescaped h =>
    rw [List.cons_append, string, if_neg h.ne_quote, if_neg h.ne_backslash,
      if_neg (Nat.not_lt.mpr h.printable), List.nil_append]
  | short h => exact string_escape (escape_short h s) read
  | @unit _ digits h =>
    have hescape : escape ('u' :: (digits ++ s)) = .ok (c, s) := unicodeEscape_unit h s
    exact string_escape hescape read
  | @surrogates _ n leading trailing hc hleading htrailing =>
    have hescape : escape ('u' :: (leading ++ '\\' :: 'u' :: (trailing ++ s))) = .ok (c, s) :=
      unicodeEscape_surrogates hc hleading htrailing s
    rw [List.cons_append, List.cons_append, List.append_assoc]
    exact string_escape hescape read

theorem string_charsText {cs inner : List Char} (h : CharsText cs inner) (read s : List Char) :
    string read (inner ++ '"' :: s) = .ok (read.reverse ++ cs, s) := by
  induction h generalizing read with
  | nil => rw [List.nil_append, string, if_pos rfl, List.append_nil]
  | cons hc hcs ih =>
    rw [List.append_assoc, string_charText hc, ih, List.reverse_cons, List.append_assoc]
    rfl

private theorem charsText_plain {cs : List Char}
    (h : (cs.all fun c => 0x20 ≤ c.toNat && c != '"' && c != '\\') = true) : CharsText cs cs := by
  induction cs with
  | nil => exact .nil
  | cons c cs ih =>
    simp only [List.all_cons, Bool.and_eq_true, decide_eq_true_eq, bne_iff_ne] at h
    obtain ⟨⟨⟨hprintable, hquote⟩, hbackslash⟩, hcs⟩ := h
    exact .cons (.unescaped ⟨hprintable, hquote, hbackslash⟩) (ih hcs)

theorem stringText_plain (value : String)
    (h : (value.toList.all fun c => 0x20 ≤ c.toNat && c != '"' && c != '\\') = true) :
    StringText value (quoted value.toList) :=
  ⟨value.toList, charsText_plain h, rfl⟩

theorem skipString_rawChars {inner : List Char} (h : RawChars inner) (s : List Char) :
    skipString (inner ++ '"' :: s) = .ok s := by
  induction h with
  | nil =>
    rw [List.nil_append]
    unfold skipString
    rw [if_pos rfl]
  | unescaped hc hs ih =>
    unfold skipString
    simp only [List.cons_append, if_neg hc.ne_quote, if_neg hc.ne_backslash,
      if_neg (Nat.not_lt.mpr hc.printable), ih]
  | short h hs ih =>
    obtain ⟨hletter, hshort⟩ := shortEscape?_of_mem h
    unfold skipString
    simp only [List.cons_append, if_neg hletter, hshort, Option.isSome_some, if_true, ih]
    rfl
  | @unit n digits s h hs ih =>
    unfold skipString
    simp only [List.cons_append, if_true, List.append_assoc]
    rw [if_neg (by decide)]
    split
    next hunit => rw [hexUnit_append h] at hunit; cases hunit
    next hunit => rw [hexUnit_append h] at hunit; cases hunit; exact ih

end Strings

section Numbers

theorem word_append (letters s : List Char) : word letters (letters ++ s) = .ok s := by
  induction letters with
  | nil => rfl
  | cons c letters ih => rw [List.cons_append, word, if_pos rfl, ih]

/-- What may follow a number: nothing that would be a further part of it. -/
def EndsNumber (s : List Char) : Prop :=
  ∀ c ∈ s.head?, isDigit c = false ∧ c ≠ '.' ∧ isExponentMark c = false

private theorem endsNumber_cons {c : Char} (hc : isBlank c = true ∨ c = ',' ∨ c = ']' ∨ c = '\x7d')
    (s : List Char) : EndsNumber (c :: s) := by
  rintro _ ⟨⟩
  simp only [isBlank, Bool.or_eq_true, beq_iff_eq, or_assoc] at hc
  rcases hc with rfl | rfl | rfl | rfl | rfl | rfl | rfl <;> decide

theorem endsNumber_gap_cons {gap : List Char} (hgap : Gap gap) {c : Char}
    (hc : c = ',' ∨ c = ']' ∨ c = '\x7d') (s : List Char) : EndsNumber (gap ++ c :: s) := by
  cases gap with
  | nil => exact endsNumber_cons (Or.inr hc) s
  | cons d gap =>
    exact endsNumber_cons (Or.inl (isBlank_of_gap hgap d List.mem_cons_self)) (gap ++ c :: s)

private theorem dropWhile_digits {digits s : List Char} (hdigits : ∀ c ∈ digits, c.isDigit = true)
    (hs : ∀ c ∈ s.head?, isDigit c = false) : (digits ++ s).dropWhile isDigit = s := by
  have hpass : (digits ++ s).dropWhile isDigit = s.dropWhile isDigit :=
    List.dropWhile_append_of_pos hdigits
  rw [hpass]
  cases s with
  | nil => rfl
  | cons c s => rw [List.dropWhile_cons, hs c rfl]; rfl

theorem isExponentMark_iff {c : Char} : isExponentMark c = true ↔ c = 'e' ∨ c = 'E' := by
  simp only [isExponentMark, Bool.or_eq_true, beq_iff_eq]

theorem ne_of_isDigit {c d : Char} (hc : isDigit c = true) (hd : isDigit d = false) : c ≠ d := by
  rintro rfl
  rw [hd] at hc
  cases hc

private theorem skipExponent_append {exponent s : List Char} (h : ExponentText exponent)
    (hs : EndsNumber s) : skipExponent (exponent ++ s) = .ok s := by
  cases h with
  | absent =>
    cases s with
    | nil => rfl
    | cons c s => simp only [List.nil_append, skipExponent, (hs c rfl).2.2, Bool.false_eq_true,
        if_false]
  | @present mark sign digits hmark hsign h =>
    obtain ⟨d, ds, rfl⟩ := List.exists_cons_of_ne_nil h.1
    have hd : isDigit d = true := h.2 d List.mem_cons_self
    have hunsigned : isSign d = false := by
      simp only [isSign, Bool.or_eq_false_iff, beq_eq_false_iff_ne]
      exact ⟨ne_of_isDigit hd rfl, ne_of_isDigit hd rfl⟩
    have hdrop : (ds ++ s).dropWhile isDigit = s :=
      dropWhile_digits (fun c hc => h.2 c (List.mem_cons_of_mem d hc)) fun c hc => (hs c hc).1
    have hplus : isSign '+' = true := rfl
    have hminus : isSign '-' = true := rfl
    rcases hsign with rfl | rfl | rfl <;>
      simp only [List.cons_append, List.nil_append, skipExponent, isExponentMark_iff.mpr hmark,
        hunsigned, hplus, hminus, hd, hdrop, Bool.false_eq_true, if_true, if_false]

private theorem skipFraction_of_head {s : List Char} (h : ∀ c ∈ s.head?, c ≠ '.') :
    skipFraction s = skipExponent s := by
  cases s with
  | nil => rfl
  | cons c s => simp only [skipFraction, if_neg (h c rfl)]

private theorem exponent_head {exponent s : List Char} (h : ExponentText exponent)
    (hs : EndsNumber s) :
    ∀ c ∈ (exponent ++ s).head?, isDigit c = false ∧ c ≠ '.' := by
  intro c hc
  cases h with
  | absent => exact ⟨(hs c hc).1, (hs c hc).2.1⟩
  | present hmark hsign h =>
    cases hc
    rcases hmark with rfl | rfl <;> decide

private theorem skipFraction_append {fraction exponent s : List Char}
    (hfraction : FractionText fraction) (hexponent : ExponentText exponent) (hs : EndsNumber s) :
    skipFraction (fraction ++ (exponent ++ s)) = .ok s := by
  cases hfraction with
  | absent =>
    rw [List.nil_append, skipFraction_of_head fun c hc => (exponent_head hexponent hs c hc).2,
      skipExponent_append hexponent hs]
  | @present digits h =>
    obtain ⟨d, ds, rfl⟩ := List.exists_cons_of_ne_nil h.1
    have hd : isDigit d = true := h.2 d List.mem_cons_self
    have hdrop : (ds ++ (exponent ++ s)).dropWhile isDigit = exponent ++ s :=
      dropWhile_digits (fun c hc => h.2 c (List.mem_cons_of_mem d hc))
        fun c hc => (exponent_head hexponent hs c hc).1
    simp only [List.cons_append, skipFraction, hd, if_true, hdrop]
    exact skipExponent_append hexponent hs

private theorem fraction_head {fraction exponent s : List Char} (hfraction : FractionText fraction)
    (hexponent : ExponentText exponent) (hs : EndsNumber s) :
    ∀ c ∈ (fraction ++ (exponent ++ s)).head?, isDigit c = false := by
  intro c hc
  cases hfraction with
  | absent => exact (exponent_head hexponent hs c hc).1
  | present h => cases hc; rfl

theorem skipNumber_append {whole fraction exponent s : List Char} (hwhole : WholeText whole)
    (hfraction : FractionText fraction) (hexponent : ExponentText exponent) (hs : EndsNumber s) :
    skipNumber (whole ++ (fraction ++ (exponent ++ s))) = .ok s := by
  have hhead := fraction_head hfraction hexponent hs
  have hskip := skipFraction_append hfraction hexponent hs
  generalize fraction ++ (exponent ++ s) = behind at hhead hskip ⊢
  cases hwhole with
  | zero =>
    cases behind with
    | nil => exact hskip
    | cons c behind =>
      simp only [List.cons_append, List.nil_append, skipNumber, if_true, hhead c rfl,
        Bool.false_eq_true, if_false, hskip]
  | @digits d ds hne h =>
    have hd : isDigit d = true := h.2 d List.mem_cons_self
    have hdrop : (ds ++ behind).dropWhile isDigit = behind :=
      dropWhile_digits (fun c hc => h.2 c (List.mem_cons_of_mem d hc)) hhead
    simp only [List.cons_append, skipNumber, if_neg hne, hd, if_true, hdrop, hskip]

theorem exists_cons_of_wholeText {whole : List Char} (h : WholeText whole) :
    ∃ d ds, whole = d :: ds ∧ isDigit d = true := by
  cases h with
  | zero => exact ⟨'0', [], rfl, rfl⟩
  | digits hd h => exact ⟨_, _, rfl, h.2 _ List.mem_cons_self⟩

end Numbers
end ResultLayout.Scan
