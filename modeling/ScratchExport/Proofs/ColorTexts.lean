import ScratchExport.Literal.Color
import ScratchExport.Proofs.BracketLevels
import ScratchExport.Proofs.Faults
import ScratchExport.Proofs.NumericTexts
import ScratchExport.Proofs.TidyLines

/-!
# Colour texts

A colour text is read in one of two places. A project file's primitives are read by `ofText`: any
number of `#`, and behind them three numerals in base 16 of two characters each (`LooseColor`). A
text that is still one when code is made is read by `source`: six hexadecimal digits of ASCII with
at most one `#` in front and blanks around (`IsHexColor`, without the blanks).

A numeral of two characters need not be two digits. It may be one digit with a sign or a blank, and
the digits of every script count (`Text.PairNumeral`). So the first reader takes texts for colours
that the second does not, and the two disagree on exactly those (`source_ofText_iff`). A text that
only the second takes, such as one with blanks around, is left to it, and no text is a colour for
both with different components. Of the numerals only those with a minus sign leave the range of a
component.
-/

namespace ScratchExport

/-! ### Numerals of two characters -/

namespace Text
variable {base m n : Nat} {a b c : Char} {x : Int}

theorem digitValue?_lt {d : Nat} (h : digitValue? c = some d) : d < 10 := by
  obtain ⟨start, hstart, rfl⟩ := Option.map_eq_some_iff.1 h
  have hrange := List.find?_some hstart
  rw [Bool.and_eq_true, decide_eq_true_eq, decide_eq_true_eq] at hrange
  omega

theorem plainDigit_of_none (h : digitValue? c = none) : plainDigit c = c := by
  rw [plainDigit, h]

theorem digitValue?_plainDigit (c : Char) : digitValue? (plainDigit c) = digitValue? c := by
  cases h : digitValue? c with
  | none => rw [plainDigit_of_none h, h]
  | some d =>
    have hascii : ∀ d < 10, digitValue? (Char.ofNat (48 + d)) = some d := by decide
    rw [plainDigit, h]
    exact hascii d (digitValue?_lt h)

theorem baseDigit?_plainDigit (base : Nat) (c : Char) :
    baseDigit? base (plainDigit c) = baseDigit? base c := by
  cases h : digitValue? c with
  | none => rw [plainDigit_of_none h]
  | some d =>
    have hplain := (digitValue?_plainDigit c).trans h
    rw [baseDigit?, baseDigit?, h, hplain]

theorem plainDigit_eq_iff {mark : Char} (hmark : digitValue? mark = none) :
    plainDigit c = mark ↔ c = mark := by
  constructor
  · rintro rfl
    exact (plainDigit_of_none (digitValue?_plainDigit c ▸ hmark)).symm
  · rintro rfl
    exact plainDigit_of_none hmark

theorem baseDigit?_lt {d : Nat} (h : baseDigit? base c = some d) : d < base := by
  obtain ⟨-, hd⟩ := Option.filter_eq_some_iff.1 h
  exact of_decide_eq_true hd

theorem groupedDigits?_cons {afterDigit : Bool} {rest : List Char}
    (h : afterDigit = false ∨ rest = []) (base n : Nat) (c : Char) :
    groupedDigits? base afterDigit n (c :: rest) =
      (baseDigit? base c).bind fun d => groupedDigits? base true (n * base + d) rest := by
  rw [groupedDigits?]
  by_cases hc : c = '_'
  · subst hc
    rcases h with rfl | rfl
    · rfl
    · cases afterDigit <;> rfl
  · rw [if_neg (by simpa using hc)]
    cases baseDigit? base c <;> rfl

theorem unsigned?_single (c : Char) : unsigned? 16 [plainDigit c] = baseDigit? 16 c := by
  have hgrouped : groupedDigits? 16 false 0 [plainDigit c] = baseDigit? 16 c := by
    rw [groupedDigits?_cons (.inl rfl), baseDigit?_plainDigit]
    cases baseDigit? 16 c with
    | none => rfl
    | some d => exact congrArg some (Nat.zero_add d)
  unfold unsigned?
  split
  · next heq => exact absurd (congrArg List.length heq) (by simp)
  · exact hgrouped

/-- The mark of base 16 needs digits behind it, so it cannot be all of a numeral. -/
theorem unsigned?_pair (a b : Char) : unsigned? 16 [plainDigit a, plainDigit b] =
    (baseDigit? 16 a).bind fun m => (baseDigit? 16 b).map fun n => 16 * m + n := by
  have hgrouped : groupedDigits? 16 false 0 [plainDigit a, plainDigit b] =
      (baseDigit? 16 a).bind fun m => (baseDigit? 16 b).map fun n => 16 * m + n := by
    rw [groupedDigits?_cons (.inl rfl), baseDigit?_plainDigit]
    refine congrArg _ (funext fun m => ?_)
    rw [groupedDigits?_cons (.inr rfl), baseDigit?_plainDigit, Nat.zero_mul, Nat.zero_add,
      Nat.mul_comm]
    cases baseDigit? 16 b <;> rfl
  unfold unsigned?
  split
  · next mark rest heq =>
    obtain ⟨hzero, hmark, rfl⟩ : plainDigit a = '0' ∧ plainDigit b = mark ∧ [] = rest := by
      simpa using heq
    split_ifs with hbase
    · have hnone : baseDigit? 16 b = none := by
        rw [← baseDigit?_plainDigit, hmark]
        rcases (by simpa using hbase : mark = 'x' ∨ mark = 'X') with rfl | rfl <;> rfl
      rw [hnone]
      cases baseDigit? 16 a <;> rfl
    · exact hgrouped
  · exact hgrouped

theorem not_isNumeralBlank {d : Nat} (h : baseDigit? base c = some d) :
    isNumeralBlank c = false := by
  -- The blanks lie below the first zero or in three stretches that no script's digits touch.
  have hapart : ∀ start ∈ zeros, 48 ≤ start ∧ (start + 10 ≤ 0x85 ∨ 0xA1 ≤ start) ∧
      (start + 10 ≤ 0x1680 ∨ 0x1681 ≤ start) ∧ (start + 10 ≤ 0x2000 ∨ 0x3001 ≤ start) := by decide
  have hblank : isBlank c = false := by
    simp only [isBlank, Bool.or_eq_false_iff, Bool.and_eq_false_iff, decide_eq_false_iff_not,
      beq_eq_false_iff_ne]
    cases hdigit : digitValue? c with
    | some v =>
      obtain ⟨start, hstart, hlow, hhigh⟩ :=
        Literal.exists_zero_of_isDigit (c := c) (by rw [isDigit, hdigit]; rfl)
      have := hapart start hstart
      omega
    | none =>
      obtain ⟨hletter, -⟩ := Option.filter_eq_some_iff.1 h
      rw [hdigit] at hletter
      dsimp only at hletter
      split_ifs at hletter with hlower hupper
      · rw [Bool.and_eq_true, decide_eq_true_eq, decide_eq_true_eq] at hlower
        have hlow : 97 ≤ c.toNat := hlower.1
        have hhigh : c.toNat ≤ 122 := hlower.2
        omega
      · rw [Bool.and_eq_true, decide_eq_true_eq, decide_eq_true_eq] at hupper
        have hlow : 65 ≤ c.toNat := hupper.1
        have hhigh : c.toNat ≤ 90 := hupper.2
        omega
  rw [isNumeralBlank, hblank, Bool.false_and]

/-- The integer of a numeral without blanks around it, with the digits in ASCII. -/
def signed? (cs : List Char) : Option Int :=
  match cs with
  | '-' :: rest => (unsigned? 16 rest).map fun n => -(n : Int)
  | '+' :: rest => (unsigned? 16 rest).map Int.ofNat
  | _ => (unsigned? 16 cs).map Int.ofNat

theorem integer?_eq_signed? (cs : List Char) : integer? 16 cs =
    signed? (((cs.dropWhile isNumeralBlank).reverse.dropWhile isNumeralBlank).reverse.map
      plainDigit) := rfl

theorem signed?_of_unsigned {front : Char} {rest : List Char} (hminus : front ≠ '-')
    (hplus : front ≠ '+') :
    signed? (front :: rest) = (unsigned? 16 (front :: rest)).map Int.ofNat := by
  unfold signed?
  split
  · next heq => exact absurd (List.cons.inj heq).1 hminus
  · next heq => exact absurd (List.cons.inj heq).1 hplus
  · rfl

theorem integer?_single (c : Char) : integer? 16 [c] = (baseDigit? 16 c).map Int.ofNat := by
  rw [integer?_eq_signed?]
  cases hblank : isNumeralBlank c with
  | true =>
    have hnone : baseDigit? 16 c = none := by
      cases hdigit : baseDigit? 16 c with
      | none => rfl
      | some d => exact absurd hblank (by rw [not_isNumeralBlank hdigit]; decide)
    rw [List.dropWhile_cons_of_pos hblank, hnone]
    rfl
  | false =>
    have hbody : ([c].dropWhile isNumeralBlank).reverse.dropWhile isNumeralBlank = [c] := by
      simp [hblank]
    rw [hbody]
    show signed? [plainDigit c] = _
    by_cases hminus : c = '-'
    · subst hminus
      rfl
    by_cases hplus : c = '+'
    · subst hplus
      rfl
    rw [signed?_of_unsigned (mt (plainDigit_eq_iff rfl).1 hminus)
      (mt (plainDigit_eq_iff rfl).1 hplus), unsigned?_single]

theorem integer?_of_blankFirst (ha : isNumeralBlank a = true) :
    integer? 16 [a, b] = integer? 16 [b] := by
  rw [integer?_eq_signed?, integer?_eq_signed?, List.dropWhile_cons_of_pos ha]

theorem integer?_of_blankLast (hb : isNumeralBlank b = true) :
    integer? 16 [a, b] = integer? 16 [a] := by
  rw [integer?_eq_signed?, integer?_eq_signed?]
  cases ha : isNumeralBlank a with
  | true => simp [ha, hb]
  | false => simp [ha, hb]

theorem integer?_of_solid (ha : isNumeralBlank a = false) (hb : isNumeralBlank b = false) :
    integer? 16 [a, b] =
      if a = '-' then (baseDigit? 16 b).map fun n : Nat => -(n : Int)
      else if a = '+' then (baseDigit? 16 b).map Int.ofNat
      else (baseDigit? 16 a).bind fun m => (baseDigit? 16 b).map fun n =>
        ((16 * m + n : Nat) : Int) := by
  have hbody : (([a, b].dropWhile isNumeralBlank).reverse.dropWhile isNumeralBlank).reverse =
    [a, b] := by simp [ha, hb]
  rw [integer?_eq_signed?, hbody]
  show signed? [plainDigit a, plainDigit b] = _
  split_ifs with hminus hplus
  · subst hminus
    have hsigned : signed? [plainDigit '-', plainDigit b] =
        ((unsigned? 16 [plainDigit b]).bind fun n => some (n : Int)).map fun n => -n := rfl
    rw [hsigned, unsigned?_single]
    cases baseDigit? 16 b <;> rfl
  · subst hplus
    show (unsigned? 16 [plainDigit b]).map _ = _
    rw [unsigned?_single]
  · rw [signed?_of_unsigned (mt (plainDigit_eq_iff rfl).1 hminus)
      (mt (plainDigit_eq_iff rfl).1 hplus), unsigned?_pair]
    cases baseDigit? 16 a with
    | none => rfl
    | some m => cases baseDigit? 16 b <;> rfl

/-- Two characters that write a number in base 16: two digits, or one digit with a sign or
a blank. -/
inductive PairNumeral : Char → Char → Int → Prop
  | digits {a b : Char} {m n : Nat} (ha : baseDigit? 16 a = some m)
      (hb : baseDigit? 16 b = some n) : PairNumeral a b (16 * m + n : Nat)
  | positive {b : Char} {n : Nat} (hb : baseDigit? 16 b = some n) : PairNumeral '+' b n
  | negative {b : Char} {n : Nat} (hb : baseDigit? 16 b = some n) : PairNumeral '-' b (-n)
  | blankFirst {a b : Char} {n : Nat} (ha : isNumeralBlank a = true)
      (hb : baseDigit? 16 b = some n) : PairNumeral a b n
  | blankLast {a b : Char} {m : Nat} (ha : baseDigit? 16 a = some m)
      (hb : isNumeralBlank b = true) : PairNumeral a b m

theorem integer?_pair_iff : integer? 16 [a, b] = some x ↔ PairNumeral a b x := by
  constructor
  · intro h
    cases ha : isNumeralBlank a with
    | true =>
      rw [integer?_of_blankFirst ha, integer?_single] at h
      obtain ⟨n, hn, rfl⟩ := Option.map_eq_some_iff.1 h
      exact .blankFirst ha hn
    | false =>
      cases hb : isNumeralBlank b with
      | true =>
        rw [integer?_of_blankLast hb, integer?_single] at h
        obtain ⟨m, hm, rfl⟩ := Option.map_eq_some_iff.1 h
        exact .blankLast hm hb
      | false =>
        rw [integer?_of_solid ha hb] at h
        split_ifs at h with hminus hplus
        · obtain ⟨n, hn, rfl⟩ := Option.map_eq_some_iff.1 h
          exact hminus ▸ .negative hn
        · obtain ⟨n, hn, rfl⟩ := Option.map_eq_some_iff.1 h
          exact hplus ▸ .positive hn
        · obtain ⟨m, hm, h⟩ := Option.bind_eq_some_iff.1 h
          obtain ⟨n, hn, rfl⟩ := Option.map_eq_some_iff.1 h
          exact .digits hm hn
  · intro h
    cases h with
    | digits ha hb =>
      rw [integer?_of_solid (not_isNumeralBlank ha) (not_isNumeralBlank hb), if_neg, if_neg, ha, hb]
      · rfl
      all_goals
        rintro rfl
        cases ha
    | positive hb | negative hb =>
      rw [integer?_of_solid rfl (not_isNumeralBlank hb), hb]
      rfl
    | blankFirst ha hb =>
      rw [integer?_of_blankFirst ha, integer?_single, hb]
      rfl
    | blankLast ha hb =>
      rw [integer?_of_blankLast hb, integer?_single, ha]
      rfl

namespace PairNumeral

theorem bounds (h : PairNumeral a b x) : -15 ≤ x ∧ x ≤ 255 := by
  cases h with
  | digits ha hb =>
    have := baseDigit?_lt ha
    have := baseDigit?_lt hb
    omega
  | positive hb | negative hb | blankFirst _ hb =>
    have := baseDigit?_lt hb
    omega
  | blankLast ha _ =>
    have := baseDigit?_lt ha
    omega

theorem ne_of_digit {d : Nat} (h : baseDigit? 16 c = some d) : c ≠ '#' ∧ c ≠ '-' := by
  constructor <;>
  · rintro rfl
    cases h

theorem ne_of_blank (h : isNumeralBlank c = true) : c ≠ '#' ∧ c ≠ '-' := by
  constructor <;>
  · rintro rfl
    cases h

theorem ne_mark (h : PairNumeral a b x) : a ≠ '#' ∧ b ≠ '#' ∧ b ≠ '-' := by
  cases h with
  | digits ha hb => exact ⟨(ne_of_digit ha).1, ne_of_digit hb⟩
  | positive hb | negative hb => exact ⟨by decide, ne_of_digit hb⟩
  | blankFirst ha hb => exact ⟨(ne_of_blank ha).1, ne_of_digit hb⟩
  | blankLast ha hb => exact ⟨(ne_of_digit ha).1, ne_of_blank hb⟩

theorem neg_iff (h : PairNumeral a b x) : x < 0 ↔ a = '-' ∧ baseDigit? 16 b ≠ some 0 := by
  cases h with
  | digits ha _ | blankLast ha _ => exact iff_of_false (by omega) fun h => (ne_of_digit ha).2 h.1
  | positive _ => exact iff_of_false (by omega) fun h => absurd h.1 (by decide)
  | blankFirst ha _ => exact iff_of_false (by omega) fun h => (ne_of_blank ha).2 h.1
  | @negative b n hb =>
    have hzero : baseDigit? 16 b = some 0 ↔ n = 0 := by rw [hb, Option.some_inj]
    rw [ne_eq, hzero]
    constructor
    · exact fun hneg => ⟨rfl, by omega⟩
    · rintro ⟨-, hn⟩
      omega

end PairNumeral

theorem count_trim (hc : isBlank c = false) (cs : List Char) : (trim cs).count c = cs.count c := by
  have hnone {blanks : List Char} (hblanks : ∀ c ∈ blanks, isBlank c = true) : blanks.count c = 0 :=
    List.count_eq_zero.2 fun hin => absurd (hblanks c hin) (by rw [hc]; decide)
  obtain ⟨blanks, hend, hblanks⟩ := exists_trimEnd_append (trimStart cs)
  have hstart := List.takeWhile_append_dropWhile (p := isBlank) (l := cs)
  calc (trim cs).count c = (trim cs).count c + blanks.count c := by rw [hnone hblanks, Nat.add_zero]
    _ = (trimStart cs).count c := by rw [hend, List.count_append]; rfl
    _ = (cs.takeWhile isBlank).count c + (trimStart cs).count c := by
      rw [hnone fun _ hin => List.mem_takeWhile_imp hin, Nat.zero_add]
    _ = cs.count c := by rw [← List.count_append]; exact congrArg _ hstart

theorem trim_of_solid {cs : List Char} (h : ∀ c ∈ cs, isBlank c = false) : trim cs = cs := by
  have hstart : trimStart cs = cs :=
    List.dropWhile_eq_self_iff.2 fun hl => by rw [h _ (List.getElem_mem hl)]; decide
  rw [trim, hstart]
  exact List.rdropWhile_eq_self_iff.2 fun hne => by rw [h _ (List.getLast_mem hne)]; decide

theorem baseDigit?_of_hexValue? (h : Json.hexValue? c = some n) : baseDigit? 16 c = some n := by
  have hascii := (Literal.isVisible_of_hexValue? h).isAscii
  have hletter (hdigit : ¬ c.isDigit = true) : digitValue? c = none :=
    Option.not_isSome_iff_eq_none.1 fun hother => hdigit (Literal.isDigit_of_isAscii hascii hother)
  unfold Json.hexValue? at h
  unfold baseDigit?
  split_ifs at h with hdigit hlower hupper
  · obtain ⟨-, hhigh⟩ := Char.isDigit_iff_toNat.1 hdigit
    cases h
    rw [digitValue?_ascii hdigit]
    exact Option.filter_some_pos
      (decide_eq_true (show c.toNat - 48 < 16 by have : c.toNat ≤ 57 := hhigh; omega))
  · cases h
    rw [Bool.and_eq_true, decide_eq_true_eq, decide_eq_true_eq] at hlower
    have hhigh : c.toNat ≤ 102 := hlower.2
    rw [hletter hdigit]
    dsimp only
    rw [if_pos (by simpa using ⟨hlower.1, Char.le_trans hlower.2 (by decide : 'f' ≤ 'z')⟩)]
    exact Option.filter_some_pos (decide_eq_true (by omega))
  · cases h
    rw [Bool.and_eq_true, decide_eq_true_eq, decide_eq_true_eq] at hupper
    have hlow : 65 ≤ c.toNat := hupper.1
    have hhigh : c.toNat ≤ 70 := hupper.2
    have hcase : ¬ 'a' ≤ c := fun hle => by have : 97 ≤ c.toNat := hle; omega
    rw [hletter hdigit]
    dsimp only
    rw [if_neg (by simp [hcase]),
      if_pos (by simpa using ⟨hupper.1, Char.le_trans hupper.2 (by decide : 'F' ≤ 'Z')⟩)]
    exact Option.filter_some_pos (decide_eq_true (by omega))

end Text

/-! ### Texts of colours -/

namespace Literal.Color
open Text

variable {cs : List Char} {r g b : Int}

/-- A colour as project files may write it: any number of `#`, and red, green and blue in two
characters each. -/
inductive LooseColor : List Char → Int → Int → Int → Prop
  | mk {a a' b b' c c' : Char} {red green blue : Int} (k : Nat) (hred : PairNumeral a a' red)
      (hgreen : PairNumeral b b' green) (hblue : PairNumeral c c' blue) :
      LooseColor (List.replicate k '#' ++ [a, a', b, b', c, c']) red green blue

/-- Six hexadecimal digits of ASCII, with or without `#` in front. -/
def IsHexColor (cs : List Char) : Prop :=
  ∃ mark digits : List Char, cs = mark ++ digits ∧ (mark = [] ∨ mark = ['#']) ∧ digits.length = 6 ∧
    ∀ c ∈ digits, (Json.hexValue? c).isSome = true

theorem isSome_of_hexPair? {a b : Char} {x : Int} (h : hexPair? a b = some x) :
    (Json.hexValue? a).isSome = true ∧ (Json.hexValue? b).isSome = true := by
  obtain ⟨m, hm, h⟩ := Option.bind_eq_some_iff.1 h
  obtain ⟨n, hn, -⟩ := Option.bind_eq_some_iff.1 h
  exact ⟨by rw [hm]; rfl, by rw [hn]; rfl⟩

theorem of_sixDigits? {rgb : Int × Int × Int} (h : sixDigits? cs = some rgb) :
    cs.length = 6 ∧ ∀ c ∈ cs, (Json.hexValue? c).isSome = true := by
  unfold sixDigits? at h
  split at h
  · obtain ⟨red, hred, h⟩ := Option.bind_eq_some_iff.1 h
    obtain ⟨green, hgreen, h⟩ := Option.bind_eq_some_iff.1 h
    obtain ⟨blue, hblue, -⟩ := Option.bind_eq_some_iff.1 h
    have hred := isSome_of_hexPair? hred
    have hgreen := isSome_of_hexPair? hgreen
    have hblue := isSome_of_hexPair? hblue
    refine ⟨rfl, ?_⟩
    simp only [List.forall_mem_cons]
    exact ⟨hred.1, hred.2, hgreen.1, hgreen.2, hblue.1, hblue.2, List.forall_mem_nil _⟩
  · cases h

namespace IsHexColor

theorem isVisible (h : IsHexColor cs) {c : Char} (hc : c ∈ cs) : IsVisible c := by
  obtain ⟨mark, digits, rfl, hmark, -, hdigits⟩ := h
  rcases List.mem_append.1 hc with hc | hc
  · rcases hmark with rfl | rfl
    · cases hc
    · rw [List.mem_singleton.1 hc]
      decide
  · obtain ⟨d, hd⟩ := Option.isSome_iff_exists.1 (hdigits c hc)
    exact isVisible_of_hexValue? hd

theorem trim_eq (h : IsHexColor cs) : trim cs = cs :=
  trim_of_solid fun _ hc => (not_isBlank_of_isVisible (h.isVisible hc)).1

theorem length_eq (h : IsHexColor cs) : cs.length = cs.count '#' + 6 := by
  obtain ⟨mark, digits, rfl, hmark, hlength, hdigits⟩ := h
  have hnone : digits.count '#' = 0 := List.count_eq_zero.2 fun hin =>
    absurd (hdigits '#' hin) (by decide)
  rw [List.length_append, List.count_append, hnone, hlength]
  rcases hmark with rfl | rfl <;> rfl

end IsHexColor

theorem isHexColor_of_ofHex? {rgb : Int × Int × Int} (h : ofHex? cs = some rgb) :
    IsHexColor cs := by
  unfold ofHex? at h
  split at h
  · next rest =>
    obtain ⟨hlength, hdigits⟩ := of_sixDigits? h
    exact ⟨['#'], rest, rfl, .inr rfl, hlength, hdigits⟩
  · obtain ⟨hlength, hdigits⟩ := of_sixDigits? h
    exact ⟨[], cs, rfl, .inl rfl, hlength, hdigits⟩

theorem ofHex?_append {mark digits : List Char} (hmark : mark = [] ∨ mark = ['#'])
    (hdigits : ∀ c ∈ digits, (Json.hexValue? c).isSome = true) :
    ofHex? (mark ++ digits) = sixDigits? digits := by
  rcases hmark with rfl | rfl
  · unfold ofHex?
    split
    · next rest heq =>
      rw [List.nil_append] at heq
      exact absurd (hdigits '#' (by rw [heq]; exact List.mem_cons_self ..)) (by decide)
    · rfl
  · rfl

theorem hexPair?_of_pairNumeral {a b : Char} {x : Int} (h : PairNumeral a b x)
    (ha : (Json.hexValue? a).isSome = true) (hb : (Json.hexValue? b).isSome = true) :
    hexPair? a b = some x := by
  obtain ⟨m, hm⟩ := Option.isSome_iff_exists.1 ha
  obtain ⟨n, hn⟩ := Option.isSome_iff_exists.1 hb
  have hdigits : PairNumeral a b (16 * m + n : Nat) :=
    .digits (baseDigit?_of_hexValue? hm) (baseDigit?_of_hexValue? hn)
  have hx : x = (16 * m + n : Nat) :=
    Option.some.inj ((integer?_pair_iff.2 h).symm.trans (integer?_pair_iff.2 hdigits))
  unfold hexPair?
  rw [hm, hn, hx]
  show some ((m : Int) * 16 + n) = _
  congr 1
  push_cast
  ring

namespace LooseColor

/-- A text that both readers take for a colour is the same colour for both. -/
theorem ofHex?_trim (h : LooseColor cs r g b) (hhex : IsHexColor cs) :
    ofHex? (trim cs) = some (r, g, b) := by
  rw [hhex.trim_eq]
  obtain ⟨mark, digits, heq, hmark, hlength, hdigits⟩ := hhex
  rw [heq, ofHex?_append hmark hdigits]
  cases h with
  | mk k hred hgreen hblue =>
    obtain ⟨-, hsix⟩ := List.append_inj' heq hlength.symm
    subst hsix
    simp only [List.forall_mem_cons] at hdigits
    obtain ⟨ha, ha', hb, hb', hc, hc', -⟩ := hdigits
    rw [sixDigits?, hexPair?_of_pairNumeral hred ha ha', hexPair?_of_pairNumeral hgreen hb hb',
      hexPair?_of_pairNumeral hblue hc hc']
    rfl

theorem length_eq (h : LooseColor cs r g b) : cs.length = cs.count '#' + 6 := by
  cases h with
  | mk k hred hgreen hblue =>
    obtain ⟨ha, ha', -⟩ := hred.ne_mark
    obtain ⟨hb, hb', -⟩ := hgreen.ne_mark
    obtain ⟨hc, hc', -⟩ := hblue.ne_mark
    simp [ha, ha', hb, hb', hc, hc']

/-- A colour of a project file that is six digits without its blanks has none: no mark is trimmed
off, and the rest is six characters with and without them. -/
theorem isHexColor_of_trim (h : LooseColor cs r g b) (hhex : IsHexColor (trim cs)) :
    IsHexColor cs := by
  have hsame : (trim cs).length = cs.length := by
    rw [hhex.length_eq, count_trim (by decide), h.length_eq]
  rwa [(trim_isInfix cs).sublist.eq_of_length hsame] at hhex

theorem bounds (h : LooseColor cs r g b) : ∀ x ∈ [r, g, b], -15 ≤ x ∧ x ≤ 255 := by
  cases h with
  | mk k hred hgreen hblue =>
    simp only [List.forall_mem_cons]
    exact ⟨hred.bounds, hgreen.bounds, hblue.bounds, List.forall_mem_nil _⟩

theorem nonneg_iff (h : LooseColor cs r g b) :
    (∀ x ∈ [r, g, b], 0 ≤ x) ↔ ∀ d, ['-', d] <:+: cs → baseDigit? 16 d = some 0 := by
  cases h with
  | @mk a a' b b' c c' red green blue k hred hgreen hblue =>
    obtain ⟨-, -, ha⟩ := hred.ne_mark
    obtain ⟨-, -, hb⟩ := hgreen.ne_mark
    obtain ⟨-, -, hc⟩ := hblue.ne_mark
    have hmarks (d : Char) (k : Nat) (rest : List Char) :
        ['-', d] <:+: List.replicate k '#' ++ rest ↔ ['-', d] <:+: rest := by
      induction k with
      | zero => rfl
      | succ k ih => simp [List.replicate_succ, List.infix_cons_iff, ih]
    have hinfix (d : Char) : ['-', d] <:+: [a, a', b, b', c, c'] ↔
        '-' = a ∧ d = a' ∨ '-' = b ∧ d = b' ∨ '-' = c ∧ d = c' := by
      simp [List.infix_cons_iff, List.cons_prefix_cons, ha.symm, hb.symm, hc.symm]
    have hpair {a a' : Char} {x : Int} (hx : PairNumeral a a' x) :
        0 ≤ x ↔ ∀ d, '-' = a ∧ d = a' → baseDigit? 16 d = some 0 := by
      rw [← Int.not_lt, hx.neg_iff]
      constructor
      · rintro hnot d ⟨rfl, rfl⟩
        exact not_not.1 fun hne => hnot ⟨rfl, hne⟩
      · rintro hzero ⟨hminus, hne⟩
        exact hne (hzero a' ⟨hminus.symm, rfl⟩)
    simp only [List.forall_mem_cons, hmarks, hinfix, hpair hred, hpair hgreen, hpair hblue, or_imp,
      forall_and]
    simp

end LooseColor

theorem ofText_cases (s : String) : ofText (.text s) = .text s ∨
    ∃ r g b, LooseColor s.toList r g b ∧ ofText (.text s) = .rgb r g b := by
  have hmarks :
      s.toList.takeWhile (· == '#') = List.replicate (s.toList.takeWhile (· == '#')).length '#' :=
    List.eq_replicate_of_mem fun c hc => by simpa using List.mem_takeWhile_imp hc
  have hsplit := List.takeWhile_append_dropWhile (p := (· == '#')) (l := s.toList)
  unfold ofText
  dsimp only [Value.display]
  split
  · next a a' b b' c c' hsix =>
    split
    · next red green blue hred hgreen hblue =>
      refine .inr ⟨red, green, blue, ?_, rfl⟩
      rw [← hsplit, hmarks, hsix]
      exact .mk _ (integer?_pair_iff.1 hred) (integer?_pair_iff.1 hgreen)
        (integer?_pair_iff.1 hblue)
    · exact .inl rfl
  · exact .inl rfl

theorem ofText_of_looseColor {s : String} (h : LooseColor s.toList r g b) :
    ofText (.text s) = .rgb r g b := by
  generalize hcs : s.toList = cs at h
  cases h with
  | @mk a a' b b' c c' _ _ _ k hred hgreen hblue =>
    have hdrop : s.toList.dropWhile (· == '#') = [a, a', b, b', c, c'] := by
      rw [hcs, List.dropWhile_append_of_pos fun c hc => by simp [List.eq_of_mem_replicate hc],
        List.dropWhile_cons_of_neg (by simpa using hred.ne_mark.1)]
    unfold ofText
    simp only [Value.display, hdrop, integer?_pair_iff.2 hred, integer?_pair_iff.2 hgreen,
      integer?_pair_iff.2 hblue]

theorem ofText_eq_rgb_iff {s : String} :
    ofText (.text s) = .rgb r g b ↔ LooseColor s.toList r g b := by
  refine ⟨fun h => ?_, ofText_of_looseColor⟩
  rcases ofText_cases s with htext | ⟨r', g', b', hloose, hrgb⟩
  · cases htext.symm.trans h
  · cases hrgb.symm.trans h
    exact hloose

example : ofText (.text "##1a ٣-0") = .rgb 26 3 0 := rfl

/-- What is no colour for the generator is written in another way than any colour. -/
theorem source_rgb_ne {s : String} (h : ofHex? (trim s.toList) = none) (r g b : Int) :
    source (.rgb r g b) ≠ source (.text s) := by
  have hrgb : source (.rgb r g b) =
      .ok ("Color.rgb(" ++ toString r ++ ", " ++ toString g ++ ", " ++ toString b ++ ")") := rfl
  rw [hrgb, source_text, h]
  cases initial (.text s) with
  | error fault => exact fun heq => by cases heq
  | ok number =>
    intro heq
    have hchars := congrArg (fun text => text.toList.take 7) (Except.ok.inj heq)
    simp [String.toList_append] at hchars

/-- A text of a project file becomes a colour exactly if it is a loose one. Then the code for the
colour is the code for the text exactly if that is six hexadecimal digits, and of the components,
which are never below -15 or above 255, none is negative exactly if no digit but zero follows a
minus sign. A text that stays one makes no difference. -/
theorem source_ofText_iff (s : String) :
    (∀ r g b, ofText (.text s) = .rgb r g b ↔ LooseColor s.toList r g b) ∧
    (source (ofText (.text s)) = source (.text s) ↔ ∀ r g b, LooseColor s.toList r g b →
      IsHexColor s.toList) ∧
    ∀ r g b, ofText (.text s) = .rgb r g b →
      (∀ x ∈ [r, g, b], -15 ≤ x ∧ x ≤ 255) ∧
      ((∀ x ∈ [r, g, b], 0 ≤ x) ↔ ∀ d, ['-', d] <:+: s.toList → baseDigit? 16 d = some 0) := by
  refine ⟨fun r g b => ofText_eq_rgb_iff, ⟨fun hsame r g b hloose => ?_, fun hhex => ?_⟩,
    fun r g b hrgb => ?_⟩
  · -- `Color.rgb` and `Color.num` are never the same text, so the generator reads a colour too.
    rw [ofText_of_looseColor hloose] at hsame
    cases hread : ofHex? (trim s.toList) with
    | none => exact absurd hsame (source_rgb_ne hread r g b)
    | some rgb => exact hloose.isHexColor_of_trim (isHexColor_of_ofHex? hread)
  · rcases ofText_cases s with htext | ⟨r, g, b, hloose, hrgb⟩
    · rw [htext]
    · rw [hrgb, source_text, hloose.ofHex?_trim (hhex r g b hloose)]
      rfl
  · have hloose := ofText_eq_rgb_iff.1 hrgb
    exact ⟨hloose.bounds, hloose.nonneg_iff⟩

theorem orange_agrees : ofText (.text "#Ff8000") = .rgb 255 128 0 ∧
    source (ofText (.text "#Ff8000")) = source (.text "#Ff8000") ∧ ∀ x ∈ [255, 128, 0],
    (0 : Int) ≤ x ∧ x ≤ 255 := by
  have hrgb : ofText (.text "#Ff8000") = .rgb 255 128 0 := rfl
  obtain ⟨-, hagree, hrange⟩ := source_ofText_iff "#Ff8000"
  obtain ⟨hbounds, hnonneg⟩ := hrange 255 128 0 hrgb
  refine ⟨hrgb, hagree.2 fun _ _ _ _ => ?_, fun x hx =>
    ⟨hnonneg.2 (fun d hd => ?_) x hx, (hbounds x hx).2⟩⟩
  · exact ⟨['#'], "Ff8000".toList, rfl, .inr rfl, rfl, List.all_iff_forall_prop.1 (by decide)⟩
  · exact absurd (hd.subset (List.mem_cons_self ..)) (by decide)

/-- Minus signs are read as parts of a colour when a project is loaded, and not when code
is made. -/
theorem minusOnes_differ : ofText (.text "-1-1-1") = .rgb (-1) (-1) (-1) ∧
    source (ofText (.text "-1-1-1")) ≠ source (.text "-1-1-1") :=
  ⟨rfl, source_rgb_ne rfl (-1) (-1) (-1)⟩

end Literal.Color

end ScratchExport
