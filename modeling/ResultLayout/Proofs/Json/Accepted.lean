import ResultLayout.Proofs.Json.Skipping
/-!
# What the scanners accept

The converse of scanning what the grammar writes: whatever a scanner takes from the front of a text
is a text of the grammar. For skipped values the containers that are open around the walk have to
end as well.
-/
namespace ResultLayout.Scan
open Written

section Tokens

theorem exists_gap {s rest : List Char} {c : Char} (h : dropBlanks s = c :: rest) :
    ∃ gap, Gap gap ∧ isBlank c = false ∧ s = gap ++ c :: rest := by
  refine ⟨s.takeWhile isBlank, fun d hd => ?_, ?_, ?_⟩
  · have hblank := List.all_eq_true.mp List.all_takeWhile d hd
    simpa only [isBlank, Bool.or_eq_true, beq_iff_eq, or_assoc] using hblank
  · have hhead := List.head?_dropWhile_not isBlank s
    rw [← dropBlanks, h] at hhead
    simpa using hhead
  · rw [← h, dropBlanks, List.takeWhile_append_dropWhile]

theorem word_eq {letters s rest : List Char} (h : word letters s = .ok rest) :
    s = letters ++ rest := by
  induction letters generalizing s with
  | nil => cases h; rfl
  | cons letter letters ih =>
    cases s with
    | nil => cases h
    | cons c s =>
      simp only [word] at h
      split at h
      next hc => rw [hc, ih h, List.cons_append]
      · cases h

theorem gap_of_colon {s rest : List Char} (h : colon s = .ok rest) :
    ∃ gap, Gap gap ∧ s = gap ++ ':' :: rest := by
  unfold colon at h
  split at h
  · cases h
  next hblanks =>
    obtain ⟨gap, hgap, -, hs⟩ := exists_gap hblanks
    split at h
    next hc =>
      cases h
      exact ⟨gap, hgap, hc ▸ hs⟩
    · cases h

end Tokens

section Strings

private theorem hexDigit_of_lt :
    ∀ k < 103, ∀ n < 16, hexValue? (Char.ofNat k) = some n →
      "0123456789abcdef".toList[n]? = some (Char.ofNat k) ∨
        "0123456789ABCDEF".toList[n]? = some (Char.ofNat k) := by
  decide +kernel

private theorem hexDigit_of_hexValue? {c : Char} {n : Nat} (h : hexValue? c = some n) :
    HexDigit n c := by
  have hbounds : c.toNat < 103 ∧ n < 16 := by
    simp only [hexValue?, Char.isDigit, Char.le_def, UInt32.le_iff_toNat_le, Bool.and_eq_true,
      decide_eq_true_iff] at h
    have hc : c.val.toNat = c.toNat := rfl
    have h0 : ('0' : Char).toNat = 48 := rfl
    have h9 : ('9' : Char).val.toNat = 57 := rfl
    have ha : ('a' : Char).toNat = 97 := rfl
    have hf : ('f' : Char).val.toNat = 102 := rfl
    have hA : ('A' : Char).toNat = 65 := rfl
    have hF : ('F' : Char).val.toNat = 70 := rfl
    split at h
    · cases h; omega
    · split at h
      · cases h; omega
      · split at h
        · cases h; omega
        · cases h
  have hdigit := hexDigit_of_lt c.toNat hbounds.1 n hbounds.2
  rw [Char.ofNat_toNat] at hdigit
  exact hdigit h

private theorem exists_hexUnit {s rest : List Char} {n : Nat} (h : hexUnit s = .ok (n, rest)) :
    ∃ digits, HexUnit n digits ∧ s = digits ++ rest := by
  unfold hexUnit at h
  split at h
  · split at h
    next h₃ h₂ h₁ h₀ =>
      cases h
      exact ⟨_, .digits (hexDigit_of_hexValue? h₃) (hexDigit_of_hexValue? h₂)
        (hexDigit_of_hexValue? h₁) (hexDigit_of_hexValue? h₀), rfl⟩
    · cases h
  · split at h <;> cases h

private theorem lt_of_hexUnit {n : Nat} {digits : List Char} (h : HexUnit n digits) :
    n < 0x10000 := by
  cases h with
  | digits h₃ h₂ h₁ h₀ =>
    have h₃ := lt_of_hexDigit h₃
    have h₂ := lt_of_hexDigit h₂
    have h₁ := lt_of_hexDigit h₁
    have h₀ := lt_of_hexDigit h₀
    omega

private theorem mem_shortEscapes {letter c : Char} (h : shortEscape? letter = some c) :
    (letter, c) ∈ shortEscapes := by
  unfold shortEscape? at h
  split at h
  next hself =>
    cases h
    rcases hself with rfl | rfl | rfl <;> decide
  · repeat' split at h
    all_goals first
      | cases h
        subst_vars
        decide
      | cases h

private theorem toNat_ofNat {n : Nat} (h : n.isValidChar) : (Char.ofNat n).toNat = n := by
  rw [Char.ofNat, dif_pos h]
  rfl

private theorem charText_unit {n : Nat} {digits : List Char}
    (htrailing : isTrailingSurrogate n = false)
    (hleading : isLeadingSurrogate n = false) (hdigits : HexUnit n digits) :
    CharText (Char.ofNat n) ('\\' :: 'u' :: digits) := by
  simp only [isTrailingSurrogate, isLeadingSurrogate, Bool.and_eq_false_iff,
    decide_eq_false_iff_not] at htrailing hleading
  have hlt := lt_of_hexUnit hdigits
  have hvalid : n.isValidChar := by
    unfold Nat.isValidChar
    omega
  refine .unit ?_
  rwa [toNat_ofNat hvalid]

private theorem charText_surrogatePair {n m : Nat} {leading trailing : List Char}
    (hn : isLeadingSurrogate n = true) (hm : isTrailingSurrogate m = true)
    (hleading : HexUnit n leading) (htrailing : HexUnit m trailing) :
    CharText (surrogatePair n m) ('\\' :: 'u' :: (leading ++ '\\' :: 'u' :: trailing)) := by
  simp only [isLeadingSurrogate, isTrailingSurrogate, Bool.and_eq_true, decide_eq_true_iff] at hn hm
  have hvalid : (0x10000 + (n - 0xD800) * 0x400 + (m - 0xDC00)).isValidChar := by
    unfold Nat.isValidChar
    omega
  have hnumber : (surrogatePair n m).toNat = 0x10000 + ((n - 0xD800) * 0x400 + (m - 0xDC00)) := by
    rw [surrogatePair, toNat_ofNat hvalid, Nat.add_assoc]
  refine .surrogates hnumber ?_ ?_
  · have hfirst : 0xD800 + ((n - 0xD800) * 0x400 + (m - 0xDC00)) / 0x400 = n := by omega
    rwa [hfirst]
  · have hsecond : 0xDC00 + ((n - 0xD800) * 0x400 + (m - 0xDC00)) % 0x400 = m := by omega
    rwa [hsecond]

private theorem charText_of_unicodeEscape {s rest : List Char} {c : Char}
    (h : unicodeEscape s = .ok (c, rest)) :
    ∃ text, CharText c ('\\' :: 'u' :: text) ∧ s = text ++ rest := by
  unfold unicodeEscape at h
  split at h
  · cases h
  next n behind hunit =>
    obtain ⟨digits, hdigits, rfl⟩ := exists_hexUnit hunit
    split at h
    · cases h
    next htrailing =>
      split at h
      next hleading =>
        split at h
        · cases h
        · cases h
        next second =>
          split at h
          · cases h
          next m behind' hsecond =>
            obtain ⟨digits', hdigits', rfl⟩ := exists_hexUnit hsecond
            split at h
            next htrailing' =>
              simp only [Except.ok.injEq, Prod.mk.injEq] at h
              obtain ⟨rfl, rfl⟩ := h
              refine ⟨digits ++ '\\' :: 'u' :: digits', ?_, by simp⟩
              exact charText_surrogatePair hleading htrailing' hdigits hdigits'
            · cases h
        · cases h
      next hleading =>
        cases h
        exact ⟨digits, charText_unit (by simpa using htrailing) (by simpa using hleading) hdigits,
          rfl⟩

private theorem charText_of_escape {s rest : List Char} {c : Char} (h : escape s = .ok (c, rest)) :
    ∃ text, CharText c ('\\' :: text) ∧ s = text ++ rest := by
  cases s with
  | nil => cases h
  | cons letter s =>
    simp only [escape] at h
    split at h
    next hletter =>
      obtain ⟨text, htext, rfl⟩ := charText_of_unicodeEscape h
      exact ⟨'u' :: text, htext, by rw [hletter, List.cons_append]⟩
    · split at h
      next hshort =>
        cases h
        exact ⟨[letter], .short (mem_shortEscapes hshort), rfl⟩
      · cases h

private theorem charsText_of_string {read s chars rest : List Char}
    (h : string read s = .ok (chars, rest)) :
    ∃ cs inner, CharsText cs inner ∧ chars = read.reverse ++ cs ∧ s = inner ++ '"' :: rest := by
  fun_induction string read s with
  | case1 => cases h
  | case2 read s =>
    cases h
    exact ⟨[], [], .nil, (List.append_nil _).symm, rfl⟩
  | case3 => cases h
  | case4 read s c behind hescape hquote ih =>
    obtain ⟨cs, inner, hinner, rfl, rfl⟩ := ih h
    obtain ⟨text, htext, rfl⟩ := charText_of_escape hescape
    exact ⟨c :: cs, '\\' :: text ++ inner, .cons htext hinner, by simp, by simp⟩
  | case5 => cases h
  | case6 read c s hquote hbackslash hcontrol ih =>
    obtain ⟨cs, inner, hinner, rfl, rfl⟩ := ih h
    have hc : Unescaped c := ⟨Nat.not_lt.mp hcontrol, hquote, hbackslash⟩
    exact ⟨c :: cs, [c] ++ inner, .cons (.unescaped hc) hinner, by simp, rfl⟩

theorem stringText_of_string {s chars rest : List Char} (h : string [] s = .ok (chars, rest)) :
    ∃ text, StringText (String.ofList chars) text ∧ '"' :: s = text ++ rest := by
  obtain ⟨cs, inner, hinner, rfl, rfl⟩ := charsText_of_string h
  refine ⟨quoted inner, ⟨inner, ?_, rfl⟩, ?_⟩
  · rwa [String.toList_ofList]
  · simp only [quoted, List.cons_append, List.append_assoc, List.nil_append]

private theorem rawChars_of_charsText {cs s : List Char} (h : CharsText cs s) : RawChars s := by
  induction h with
  | nil => exact .nil
  | @cons c cs text rest hc hcs ih =>
    cases hc with
    | unescaped h => exact .unescaped h ih
    | short h => exact .short h ih
    | unit h => exact .unit h ih
    | surrogates hc hleading htrailing =>
      simp only [List.cons_append, List.append_assoc]
      exact .unit hleading (.unit htrailing ih)

theorem rawString_of_stringText {value : String} {text : List Char} (h : StringText value text) :
    RawString text := by
  obtain ⟨inner, hinner, rfl⟩ := h
  exact ⟨inner, rawChars_of_charsText hinner, rfl⟩

private theorem rawChars_of_skipString {s rest : List Char} (h : skipString s = .ok rest) :
    ∃ inner, RawChars inner ∧ s = inner ++ '"' :: rest := by
  fun_induction skipString s with
  | case1 => cases h
  | case2 =>
    cases h
    exact ⟨[], .nil, rfl⟩
  | case3 => cases h
  | case4 => cases h
  | case5 s n behind hunit hquote ih =>
    obtain ⟨inner, hinner, rfl⟩ := ih h
    obtain ⟨digits, hdigits, rfl⟩ := exists_hexUnit hunit
    exact ⟨'\\' :: 'u' :: (digits ++ inner), .unit hdigits hinner, by simp⟩
  | case6 letter s hletter hshort hquote ih =>
    obtain ⟨inner, hinner, rfl⟩ := ih h
    obtain ⟨c, hc⟩ := Option.isSome_iff_exists.mp hshort
    exact ⟨'\\' :: letter :: inner, .short (mem_shortEscapes hc) hinner, rfl⟩
  | case7 => cases h
  | case8 => cases h
  | case9 c s hquote hbackslash hcontrol ih =>
    obtain ⟨inner, hinner, rfl⟩ := ih h
    exact ⟨c :: inner, .unescaped ⟨Nat.not_lt.mp hcontrol, hquote, hbackslash⟩ hinner, rfl⟩

private theorem rawString_of_skipString {s rest : List Char} (h : skipString s = .ok rest) :
    ∃ text, RawString text ∧ '"' :: s = text ++ rest := by
  obtain ⟨inner, hinner, rfl⟩ := rawChars_of_skipString h
  refine ⟨quoted inner, ⟨inner, hinner, rfl⟩, ?_⟩
  simp only [quoted, List.cons_append, List.append_assoc, List.nil_append]

end Strings

section Numbers

private theorem exists_digits {d : Char} {s : List Char} (hd : isDigit d = true) :
    ∃ ds, Digits (d :: ds) ∧ s = ds ++ s.dropWhile isDigit := by
  refine ⟨s.takeWhile isDigit, ⟨List.cons_ne_nil _ _, fun c hc => ?_⟩,
    List.takeWhile_append_dropWhile.symm⟩
  rcases List.mem_cons.mp hc with rfl | hc
  · exact hd
  · exact List.all_eq_true.mp List.all_takeWhile c hc

private theorem exists_sign (s : List Char) :
    ∃ sign, (sign = [] ∨ sign = ['+'] ∨ sign = ['-']) ∧
      s = sign ++ match s with
        | sign :: rest => if isSign sign then rest else s
        | [] => [] := by
  cases s with
  | nil => exact ⟨[], Or.inl rfl, rfl⟩
  | cons c s =>
    by_cases hc : isSign c = true
    · refine ⟨[c], Or.inr ?_, by simp only [hc, if_true, List.cons_append, List.nil_append]⟩
      simpa only [isSign, Bool.or_eq_true, beq_iff_eq, List.cons.injEq, and_true] using hc
    · exact ⟨[], Or.inl rfl, by simp only [hc, Bool.false_eq_true, if_false, List.nil_append]⟩

private theorem exponentText_of_skipExponent {s rest : List Char} (h : skipExponent s = .ok rest) :
    ∃ exponent, ExponentText exponent ∧ s = exponent ++ rest := by
  unfold skipExponent at h
  split at h
  · cases h
    exact ⟨[], .absent, rfl⟩
  next mark s =>
    split at h
    next hmark =>
      dsimp only at h
      obtain ⟨sign, hsign, hs⟩ := exists_sign s
      split at h
      next d behind hunsigned =>
        split at h
        next hd =>
          cases h
          obtain ⟨ds, hds, hbehind⟩ := exists_digits (s := behind) hd
          refine ⟨mark :: (sign ++ d :: ds), .present (isExponentMark_iff.mp hmark) hsign hds, ?_⟩
          have hs : s = sign ++ d :: behind := hs.trans (congrArg (sign ++ ·) hunsigned)
          rw [List.cons_append, List.append_assoc, List.cons_append, ← hbehind, ← hs]
        · cases h
      · cases h
    · cases h
      exact ⟨[], .absent, rfl⟩

private theorem fractionText_of_skipFraction {s rest : List Char} (h : skipFraction s = .ok rest) :
    ∃ fraction exponent, FractionText fraction ∧ ExponentText exponent ∧
      s = fraction ++ (exponent ++ rest) := by
  unfold skipFraction at h
  split at h
  · cases h
    exact ⟨[], [], .absent, .absent, rfl⟩
  · split at h
    next hpoint =>
      split at h
      next d behind =>
        split at h
        next hd =>
          obtain ⟨exponent, hexponent, hrest⟩ := exponentText_of_skipExponent h
          obtain ⟨ds, hds, hbehind⟩ := exists_digits (s := behind) hd
          refine ⟨'.' :: d :: ds, exponent, .present hds, hexponent, ?_⟩
          rw [← hrest, List.cons_append, List.cons_append, ← hbehind, hpoint]
        · cases h
      · cases h
    · obtain ⟨exponent, hexponent, hs⟩ := exponentText_of_skipExponent h
      exact ⟨[], exponent, .absent, hexponent, hs⟩

private theorem numberText_of_skipNumber {s rest : List Char} (h : skipNumber s = .ok rest) :
    ∃ whole fraction exponent, WholeText whole ∧ FractionText fraction ∧ ExponentText exponent ∧
      s = whole ++ (fraction ++ (exponent ++ rest)) := by
  unfold skipNumber at h
  split at h
  · cases h
  next c s =>
    split at h
    next hzero =>
      split at h
      next d behind =>
        split at h
        · cases h
        · obtain ⟨fraction, exponent, hfraction, hexponent, hs⟩ := fractionText_of_skipFraction h
          exact ⟨['0'], fraction, exponent, .zero, hfraction, hexponent, by rw [hzero, hs]; rfl⟩
      · cases h
        exact ⟨['0'], [], [], .zero, .absent, .absent, by rw [hzero]; rfl⟩
    next hzero =>
      split at h
      next hc =>
        obtain ⟨fraction, exponent, hfraction, hexponent, hrest⟩ := fractionText_of_skipFraction h
        obtain ⟨ds, hds, hs⟩ := exists_digits (s := s) hc
        refine ⟨c :: ds, fraction, exponent, .digits hzero hds, hfraction, hexponent, ?_⟩
        rw [← hrest, List.cons_append, ← hs]
      · cases h

end Numbers

section Values

private theorem jsonText_of_skipNumber {sign s rest : List Char} (hsign : sign = [] ∨ sign = ['-'])
    (h : skipNumber s = .ok rest) : ∃ text, JsonText text ∧ sign ++ s = text ++ rest := by
  obtain ⟨whole, fraction, exponent, hwhole, hfraction, hexponent, rfl⟩ :=
    numberText_of_skipNumber h
  exact ⟨_, .number (.parts hsign hwhole hfraction hexponent), by simp only [List.append_assoc]⟩

private theorem jsonText_of_skipScalar {s rest : List Char} (h : skipScalar s = .ok rest) :
    ∃ text, JsonText text ∧ s = text ++ rest := by
  cases s with
  | nil => cases h
  | cons c s =>
    simp only [skipScalar] at h
    split at h
    next hc => exact ⟨_, .null, by rw [hc, word_eq h]; rfl⟩
    · split at h
      next hc => exact ⟨_, .true, by rw [hc, word_eq h]; rfl⟩
      · split at h
        next hc => exact ⟨_, .false, by rw [hc, word_eq h]; rfl⟩
        · split at h
          next hc =>
            obtain ⟨text, htext, hs⟩ := rawString_of_skipString h
            exact ⟨text, .string htext, by rw [hc, hs]⟩
          · split at h
            next hc => exact hc ▸ jsonText_of_skipNumber (Or.inr rfl) h
            · exact jsonText_of_skipNumber (Or.inl rfl) h

private theorem key_of_skipKey {s rest : List Char} (h : skipKey s = .ok rest) :
    ∃ gap key beforeColon, Gap gap ∧ RawString key ∧ Gap beforeColon ∧
      s = gap ++ (key ++ (beforeColon ++ ':' :: rest)) := by
  unfold skipKey at h
  split at h
  · cases h
  next c s hblanks =>
    obtain ⟨gap, hgap, -, rfl⟩ := exists_gap hblanks
    split at h
    next hc =>
      split at h
      · cases h
      next hskip =>
        obtain ⟨beforeColon, hbeforeColon, rfl⟩ := gap_of_colon h
        obtain ⟨key, hkey, hs⟩ := rawString_of_skipString hskip
        exact ⟨gap, key, beforeColon, hgap, hkey, hbeforeColon, by rw [hc, hs]⟩
    · cases h

/-- The texts of the items of a container. -/
inductive ItemText : Container → List Char → Prop
  | value {text : List Char} (h : JsonText text) : ItemText .array text
  | member (member : MemberText) (hkey : RawString member.key) (hvalue : JsonText member.value) :
    ItemText .object member.text

private theorem itemText_of_skipKey {s gap text behind : List Char}
    (h : skipKey s = .ok (gap ++ (text ++ behind))) (hgap : Gap gap) (htext : JsonText text) :
    ∃ before item, Gap before ∧ ItemText .object item ∧ s = before ++ (item ++ behind) := by
  obtain ⟨before, key, beforeColon, hbefore, hkey, hbeforeColon, rfl⟩ := key_of_skipKey h
  refine ⟨before, _, hbefore,
    .member ⟨key, beforeColon, gap, text, hbeforeColon, hgap⟩ hkey htext, ?_⟩
  simp only [MemberText.text, List.append_assoc, List.cons_append]

private theorem jsonText_array {texts : List (List Char)} {inner : List Char}
    (h : Items texts inner)
    (htexts : ∀ text ∈ texts, ItemText .array text) : JsonText ('[' :: (inner ++ [']'])) := by
  refine @JsonText.array texts _ (fun text htext => ?_) ⟨inner, h, rfl⟩
  cases htexts text htext with
  | value h => exact h

private theorem exists_memberTexts {texts : List (List Char)}
    (htexts : ∀ text ∈ texts, ItemText .object text) :
    ∃ members : List MemberText, members.map MemberText.text = texts ∧
      ∀ member ∈ members, RawString member.key ∧ JsonText member.value := by
  induction texts with
  | nil => exact ⟨[], rfl, by rintro _ ⟨⟩⟩
  | cons text texts ih =>
    obtain ⟨htext, htexts⟩ := List.forall_mem_cons.mp htexts
    obtain ⟨members, rfl, hmembers⟩ := ih htexts
    cases htext with
    | member member hkey hvalue =>
      exact ⟨member :: members, rfl, List.forall_mem_cons.mpr ⟨⟨hkey, hvalue⟩, hmembers⟩⟩

theorem jsonText_object {texts : List (List Char)} {inner : List Char} (h : Items texts inner)
    (htexts : ∀ text ∈ texts, ItemText .object text) :
    JsonText ('\x7b' :: (inner ++ ['\x7d'])) := by
  obtain ⟨members, rfl, hmembers⟩ := exists_memberTexts htexts
  exact .object (fun member hmember => (hmembers member hmember).1)
    (fun member hmember => (hmembers member hmember).2) ⟨inner, h, rfl⟩

/-- What may stand between an item of a container and the closing bracket. -/
inductive MoreText (container : Container) : List Char → Prop
  | none {gap : List Char} (hgap : Gap gap) : MoreText container gap
  | some {after before text more : List Char} (hafter : Gap after) (hbefore : Gap before)
    (htext : ItemText container text) (hmore : MoreText container more) :
    MoreText container (after ++ ',' :: (before ++ (text ++ more)))

private theorem MoreText.commaList {container : Container} {more : List Char}
    (h : MoreText container more) {before text : List Char} (hbefore : Gap before)
    (htext : ItemText container text) :
    ∃ texts, CommaList texts (before ++ (text ++ more)) ∧
      ∀ text ∈ texts, ItemText container text := by
  induction h generalizing before text with
  | none hgap => exact ⟨[text], .one hbefore hgap, List.forall_mem_singleton.mpr htext⟩
  | some hafter hbefore' htext' hmore ih =>
    obtain ⟨texts, hcommaList, htexts⟩ := ih hbefore' htext'
    exact ⟨text :: texts, .more hbefore hafter hcommaList,
      List.forall_mem_cons.mpr ⟨htext, htexts⟩⟩

/-- Behind an item the open containers end, the innermost first, and leave `rest`. -/
def Closes (rest : List Char) : List Container → List Char → Prop
  | [], s => s = rest
  | container :: around, s =>
    ∃ more behind, MoreText container more ∧ s = more ++ container.closing :: behind ∧
      Closes rest around behind

/-- What a walk takes from where it stands up to the end of the value that it skips. -/
def Taken (rest : List Char) (around : List Container) (s : List Char) : SkipPlace → Prop
  | .value =>
    ∃ gap text behind, Gap gap ∧ JsonText text ∧ s = gap ++ (text ++ behind) ∧
      Closes rest around behind
  | .opened container =>
    ∃ texts inner behind, Items texts inner ∧ (∀ text ∈ texts, ItemText container text) ∧
      s = inner ++ container.closing :: behind ∧ Closes rest around behind
  | .closed => Closes rest around s

private theorem taken_of_skipFrom {place : SkipPlace} {around : List Container} {s rest : List Char}
    (h : skipFrom place around s = .ok rest) : Taken rest around s place := by
  fun_induction skipFrom place around s with
  | case1 => cases h
  | case2 s around behind hblanks ih =>
    obtain ⟨gap, hgap, -, rfl⟩ := exists_gap hblanks
    obtain ⟨texts, inner, behind', hinner, htexts, rfl, hcloses⟩ := ih h
    exact ⟨gap, '[' :: (inner ++ [']']), behind', hgap, jsonText_array hinner htexts,
      by simp [Container.closing], hcloses⟩
  | case3 s around behind hblanks hne ih =>
    obtain ⟨gap, hgap, -, rfl⟩ := exists_gap hblanks
    obtain ⟨texts, inner, behind', hinner, htexts, rfl, hcloses⟩ := ih h
    exact ⟨gap, '\x7b' :: (inner ++ ['\x7d']), behind', hgap, jsonText_object hinner htexts,
      by simp [Container.closing], hcloses⟩
  | case4 => cases h
  | case5 s around c behind hblanks hbracket hbrace behind' hscalar ih =>
    obtain ⟨gap, hgap, -, rfl⟩ := exists_gap hblanks
    obtain ⟨text, htext, hs⟩ := jsonText_of_skipScalar hscalar
    exact ⟨gap, text, behind', hgap, htext, by rw [hs], ih h⟩
  | case6 => cases h
  | case7 s container around behind hblanks ih =>
    obtain ⟨gap, hgap, -, rfl⟩ := exists_gap hblanks
    exact ⟨[], gap, behind, .none hgap, by rintro _ ⟨⟩, rfl, ih h⟩
  | case8 s around c behind hblanks hne ih =>
    obtain ⟨gap, text, behind', hgap, htext, rfl, more, behind'', hmore, rfl, hcloses⟩ := ih h
    obtain ⟨texts, hcommaList, htexts⟩ := hmore.commaList hgap (.value htext)
    exact ⟨texts, _, behind'', .some hcommaList, htexts, by simp only [List.append_assoc], hcloses⟩
  | case9 => cases h
  | case10 s around c behind hblanks behind' hkey hne ih =>
    obtain ⟨gap, text, behind', hgap, htext, rfl, more, behind'', hmore, rfl, hcloses⟩ := ih h
    obtain ⟨before, item, hbefore, hitem, rfl⟩ := itemText_of_skipKey hkey hgap htext
    obtain ⟨texts, hcommaList, htexts⟩ := hmore.commaList hbefore hitem
    exact ⟨texts, _, behind'', .some hcommaList, htexts, by simp only [List.append_assoc], hcloses⟩
  | case11 => cases h; rfl
  | case12 => cases h
  | case13 s container around behind hblanks ih =>
    obtain ⟨gap, hgap, -, rfl⟩ := exists_gap hblanks
    exact ⟨gap, behind, .none hgap, rfl, ih h⟩
  | case14 s around behind hblanks hne ih =>
    obtain ⟨after, hafter, -, rfl⟩ := exists_gap hblanks
    obtain ⟨gap, text, behind', hgap, htext, rfl, more, behind'', hmore, rfl, hcloses⟩ := ih h
    exact ⟨_, behind'', .some hafter hgap (.value htext) hmore,
      by simp only [List.append_assoc, List.cons_append], hcloses⟩
  | case15 => cases h
  | case16 s around behind behind' hkey hblanks hne ih =>
    obtain ⟨after, hafter, -, rfl⟩ := exists_gap hblanks
    obtain ⟨gap, text, behind', hgap, htext, rfl, more, behind'', hmore, rfl, hcloses⟩ := ih h
    obtain ⟨before, item, hbefore, hitem, rfl⟩ := itemText_of_skipKey hkey hgap htext
    exact ⟨_, behind'', .some hafter hbefore hitem hmore,
      by simp only [List.append_assoc, List.cons_append], hcloses⟩
  | case17 => cases h

/-- What is skipped is a value of the grammar. -/
theorem jsonText_of_skipValue {s rest : List Char} (h : skipValue s = .ok rest) :
    ∃ gap text, Gap gap ∧ JsonText text ∧ s = gap ++ (text ++ rest) := by
  obtain ⟨gap, text, _, hgap, htext, hs, rfl⟩ := taken_of_skipFrom h
  exact ⟨gap, text, hgap, htext, hs⟩

end Values
end ResultLayout.Scan
