import ScratchExport.Literal.Source
import ScratchExport.Proofs.Escapes
import ScratchExport.Proofs.Pieces

/-!
# Initial values read back

The literal of an initial value is JSON as long as nothing in it is written as a number and no key
is written: null, truth values, texts that stay texts, and lists of such values (`StaysText`).
`ReadsBack v cs` says that a reader finds `v` at the front of a text that starts with `cs` and
leaves exactly what is behind; it holds of the words, of string literals, and of a list if it holds
of the members. A text stays a text unless it is a number that is written as one.
-/

namespace ScratchExport

namespace Json
open Text (escapeChar literalChars joinWith joinWith_cons)
variable {c : Char} {cs rest : List Char} {fuel : Nat} {v : Value}

/-! ### String literals -/

theorem hexUnit_hexDigits {n : Nat} (h : n < 0x20) (rest : List Char) :
    hexUnit (Text.hexDigits 4 n ++ rest) = some (n, rest) := by
  have hdigits : ∀ n < 0x20, Text.hexDigits 4 n = ['0', '0', Nat.digitChar (n / 16),
    Nat.digitChar (n % 16)] := by decide
  have hvalue : ∀ k < 16, hexValue? (Nat.digitChar k) = some k := by decide
  have hzero : hexValue? '0' = some 0 := rfl
  rw [hdigits n h]
  simp only [List.cons_append, List.nil_append, hexUnit, hzero, hvalue (n / 16) (by omega),
    hvalue (n % 16) (by omega)]
  simp only [Option.bind_eq_bind, Option.bind_some, Option.pure_def, Option.some.injEq,
    Prod.mk.injEq, and_true]
  omega

theorem unicodeEscape_hexDigits (h : c.toNat < 0x20) (rest : List Char) :
    unicodeEscape (Text.hexDigits 4 c.toNat ++ rest) = some (c, rest) := by
  rw [unicodeEscape, hexUnit_hexDigits h]
  simp only [Option.bind_eq_bind, Option.bind_some]
  rw [if_neg (by simp; omega), if_neg (by simp; omega), Char.ofNat_toNat]
  rfl

/-- A character inside a string literal is read as itself. -/
theorem stringTail_escapeChar (fuel : Nat) (c : Char) (rest : List Char) :
    stringTail (fuel + 1) (escapeChar c ++ rest) =
    (stringTail fuel rest).bind fun found => some (c :: found.1, found.2) := by
  unfold escapeChar
  split_ifs with hquote hbackslash h1 h2 h3 h4 h5 hcontrol
  · rw [eq_of_beq hquote]; rfl
  · rw [eq_of_beq hbackslash]; rfl
  · rw [eq_of_beq h1]; rfl
  · rw [eq_of_beq h2]; rfl
  · rw [eq_of_beq h3]; rfl
  · rw [eq_of_beq h4]; rfl
  · rw [eq_of_beq h5]; rfl
  · show (unicodeEscape (Text.hexDigits 4 c.toNat ++ rest) >>= fun found => _) = _
    rw [unicodeEscape_hexDigits hcontrol]
    rfl
  · rw [beq_iff_eq] at hquote hbackslash
    have hplain : (decide (c.toNat < 0x20) || c == '\\') = false := by simp [hcontrol, hbackslash]
    rw [List.singleton_append, stringTail.eq_def]
    dsimp only
    split
    · contradiction
    · rename_i heq; exact absurd (List.cons.inj heq).1 hquote
    · rename_i heq; exact absurd (List.cons.inj heq).1 hbackslash
    · rename_i heq; exact absurd (List.cons.inj heq).1 hbackslash
    · rename_i heq
      cases heq
      rw [hplain]
      rfl

theorem escapeChar_length_pos (c : Char) : 0 < (escapeChar c).length := by
  rcases Text.escapeChar_cases c with ⟨h, -⟩ | ⟨⟨d, rest, h, -⟩, -⟩ <;> simp [h]

theorem stringTail_escaped (cs rest : List Char) (h : (cs.flatMap escapeChar).length < fuel) :
    stringTail fuel (cs.flatMap escapeChar ++ '"' :: rest) = some (cs, rest) := by
  obtain ⟨fuel, rfl⟩ := Nat.exists_eq_succ_of_ne_zero (Nat.ne_zero_of_lt h)
  induction cs generalizing fuel with
  | nil => rfl
  | cons c cs ih =>
    have hpos := escapeChar_length_pos c
    rw [List.flatMap_cons, List.length_append] at h
    obtain ⟨fuel, rfl⟩ := Nat.exists_eq_succ_of_ne_zero (show fuel ≠ 0 by omega)
    rw [List.flatMap_cons, List.append_assoc, stringTail_escapeChar, ih fuel (by omega)]
    rfl

/-! ### Values -/

/-- A text starts with a character that is neither blank nor the end of a list. -/
def StartsValue (cs : List Char) : Prop :=
  ∃ c rest, cs = c :: rest ∧ isBlank c = false ∧ c ≠ ']'

/-- A reader finds a value at the front of a text. -/
structure ReadsBack (v : Value) (cs : List Char) : Prop where
  starts : StartsValue cs
  value : ∀ fuel rest, 2 * cs.length ≤ fuel → value fuel (cs ++ rest) = some (v, rest)

namespace StartsValue

theorem append (h : StartsValue cs) (rest : List Char) : StartsValue (cs ++ rest) := by
  obtain ⟨c, tail, rfl, hc⟩ := h
  exact ⟨c, tail ++ rest, rfl, hc⟩

theorem skipBlanks (h : StartsValue cs) : skipBlanks cs = cs := by
  obtain ⟨c, tail, rfl, hc, -⟩ := h
  exact List.dropWhile_cons_of_neg (by simp [hc])

theorem skipBlanks_blank (h : StartsValue cs) : Json.skipBlanks (' ' :: cs) = cs :=
  h.skipBlanks

end StartsValue

theorem ReadsBack.read?_eq {source : String} (h : ReadsBack v source.toList) :
    read? source = some v := by
  have hvalue := h.value (2 * source.toList.length + 2) [] (by omega)
  rw [List.append_nil] at hvalue
  rw [read?]
  dsimp only
  rw [h.starts.skipBlanks, hvalue]
  rfl

theorem readsBack_word {w : String} (hw : (w, v) ∈ words.take 3) : ReadsBack v w.toList := by
  simp only [words, List.take_succ_cons, List.take_zero, List.mem_cons, Prod.mk.injEq,
    List.not_mem_nil, or_false] at hw
  rcases hw with ⟨rfl, rfl⟩ | ⟨rfl, rfl⟩ | ⟨rfl, rfl⟩
  all_goals
    refine ⟨⟨_, _, rfl, by decide, by decide⟩, fun fuel rest hfuel => ?_⟩
    obtain ⟨fuel, rfl⟩ : ∃ k, fuel = k + 1 :=
    Nat.exists_eq_succ_of_ne_zero (by rintro rfl; revert hfuel; decide)
    rfl

theorem readsBack_literal (s : String) : ReadsBack (.text s) (Text.literal s).toList := by
  rw [Text.literal, String.toList_ofList, literalChars]
  refine ⟨⟨'"', _, rfl, by decide, by decide⟩, fun fuel rest hfuel => ?_⟩
  simp only [List.length_append, List.length_cons] at hfuel
  obtain ⟨fuel, rfl⟩ : ∃ k, fuel = k + 1 := Nat.exists_eq_succ_of_ne_zero (by omega)
  rw [List.cons_append, List.cons_append, List.append_assoc, List.singleton_append]
  show (stringTail fuel (s.toList.flatMap escapeChar ++ '"' :: rest) >>= fun found => _) = _
  rw [stringTail_escaped _ _ (by omega)]
  show some (Value.text (String.ofList s.toList), rest) = _
  rw [String.ofList_toList]

/-! ### Lists -/

/-- What separates the members of a list. -/
def comma : List Char := [',', ' ']

theorem startsValue_joinWith {items : List Value} {texts : List (List Char)} (hne : texts ≠ [])
    (h : List.Forall₂ ReadsBack items texts) : StartsValue (joinWith comma texts) := by
  cases h with
  | nil => exact absurd rfl hne
  | @cons v cs items texts hv h =>
    by_cases hlast : texts = []
    · rw [hlast]
      exact hv.starts
    · rw [joinWith_cons _ _ hlast, List.append_assoc]
      exact hv.starts.append _

theorem items_joinWith {items : List Value} {texts : List (List Char)} (hne : texts ≠ [])
    (h : List.Forall₂ ReadsBack items texts) (rest : List Char)
    (hfuel : 2 * (joinWith comma texts).length < fuel) :
    Json.items fuel (joinWith comma texts ++ ']' :: rest) = some (items, rest) := by
  induction h generalizing fuel with
  | nil => exact absurd rfl hne
  | @cons v cs items texts hv h ih =>
    obtain ⟨fuel, rfl⟩ := Nat.exists_eq_succ_of_ne_zero (Nat.ne_zero_of_lt hfuel)
    by_cases hlast : texts = []
    · subst hlast
      cases h
      rw [joinWith] at hfuel ⊢
      rw [Json.items, hv.value fuel _ (by omega)]
      rfl
    · have hcomma : comma.length = 2 := rfl
      rw [joinWith_cons _ _ hlast] at hfuel ⊢
      simp only [List.length_append, hcomma] at hfuel
      rw [List.append_assoc, List.append_assoc, Json.items, hv.value fuel _ (by omega)]
      show (Json.items fuel (skipBlanks (' ' :: (joinWith comma texts ++ ']' :: rest))) >>=
        fun found => _) = _
      rw [((startsValue_joinWith hlast h).append _).skipBlanks_blank, ih hlast (by omega)]
      rfl

theorem readsBack_list {items : List Value} {texts : List (List Char)}
    (h : List.Forall₂ ReadsBack items texts) :
    ReadsBack (.list items) ('[' :: (joinWith comma texts ++ [']'])) := by
  refine ⟨⟨'[', _, rfl, by decide, by decide⟩, fun fuel rest hfuel => ?_⟩
  simp only [List.length_append, List.length_cons, List.length_nil] at hfuel
  obtain ⟨fuel, rfl⟩ : ∃ k, fuel = k + 1 := Nat.exists_eq_succ_of_ne_zero (by omega)
  rw [List.cons_append, List.append_assoc, List.singleton_append]
  by_cases hne : texts = []
  · subst hne
    cases h
    rfl
  · have hstarts := (startsValue_joinWith hne h).append (']' :: rest)
    have hitems : Json.items fuel (joinWith comma texts ++ ']' :: rest) = some (items, rest) :=
      items_joinWith hne h rest (by omega)
    rw [Json.value, hstarts.skipBlanks]
    obtain ⟨c, tail, heq, -, hc⟩ := hstarts
    rw [heq] at hitems ⊢
    split
    · rename_i hclose; exact absurd (List.cons.inj hclose).1 hc
    · rw [hitems]
      rfl

end Json

namespace Literal
open Json (ReadsBack)

/-- A value in which nothing is written as a number or a record: null, truth values, texts that are
no number, an infinity or an unsafe integer, and lists of such values. -/
inductive StaysText : Value → Prop
  | null : StaysText .null
  | bool (b : Bool) : StaysText (.bool b)
  | text {s : String} {number : Option Binary64} (hs : ofText s = .ok number)
      (h : ∀ x ∈ number, (∃ negative, x = .infinite negative) ∨ isUnsafeInteger x = true) :
        StaysText (.text s)
  | list {items : List Value} (h : ∀ v ∈ items, StaysText v) : StaysText (.list items)

theorem initial_text {s : String} {number : Option Binary64} (hs : ofText s = .ok number)
    (h : ∀ x ∈ number, isPlain x = false) : initial (.text s) = .ok (Text.literal s) := by
  rw [initial]
  show (ofText s >>= fun number => _) = _
  rw [hs]
  cases number with
  | none => rfl
  | some x =>
    show (if isPlain x then _ else _) = _
    rw [h x rfl]
    rfl

theorem isPlain_eq_false {x : Binary64}
    (h : (∃ negative, x = .infinite negative) ∨ isUnsafeInteger x = true) : isPlain x = false := by
  rcases h with ⟨negative, rfl⟩ | h
  · rfl
  · rw [isPlain, h, Bool.not_true, Bool.and_false]

theorem initialItems_readsBack {items : List Value}
    (h : ∀ v ∈ items, ∃ source, initial v = .ok source ∧ ReadsBack v source.toList) :
    ∃ sources, initialItems items = .ok sources ∧
    List.Forall₂ ReadsBack items (sources.map String.toList) := by
  induction items with
  | nil => exact ⟨[], rfl, .nil⟩
  | cons v rest ih =>
    rw [List.forall_mem_cons] at h
    obtain ⟨source, hsource, hread⟩ := h.1
    obtain ⟨sources, hsources, hreads⟩ := ih h.2
    refine ⟨source :: sources, ?_, .cons hread hreads⟩
    rw [initialItems, hsource, hsources]
    rfl

/-- The literal of a value, with whatever behind it, reads back as the value. -/
theorem initial_readsBack {v : Value} (h : StaysText v) :
    ∃ source, initial v = .ok source ∧ ReadsBack v source.toList := by
  induction h with
  | null => exact ⟨"null", rfl, Json.readsBack_word (by simp [Json.words])⟩
  | bool b =>
    cases b with
    | false => exact ⟨"false", rfl, Json.readsBack_word (by simp [Json.words])⟩
    | true => exact ⟨"true", rfl, Json.readsBack_word (by simp [Json.words])⟩
  | @text s number hs h =>
    exact ⟨_, initial_text hs fun x hx => isPlain_eq_false (h x hx), Json.readsBack_literal s⟩
  | @list items h ih =>
    obtain ⟨sources, hsources, hreads⟩ := initialItems_readsBack ih
    refine ⟨"[" ++ ", ".intercalate sources ++ "]", by rw [initial, hsources]; rfl, ?_⟩
    have hchars : ("[" ++ ", ".intercalate sources ++ "]").toList =
        '[' :: (Text.joinWith Json.comma (sources.map String.toList) ++ [']']) := by
      rw [String.toList_append, String.toList_append, String.toList_intercalate,
        Text.joinWith_eq_intercalate]
      rfl
    rw [hchars]
    exact Json.readsBack_list hreads

/-- An initial value in which nothing is written as a number or a record is written as JSON that
reads back as it. -/
theorem read?_initial (v : Value) (h : StaysText v) :
    ∃ source, initial v = .ok source ∧ Json.read? source = some v := by
  obtain ⟨source, hsource, hreads⟩ := initial_readsBack h
  exact ⟨source, hsource, hreads.read?_eq⟩

/-- A list with an empty list, an infinity, an integer that is not safe, and a text with a quote, a
backslash, controls, a line separator and a character outside the first plane. -/
def mixedValue : Value :=
  .list [.null, .list [], .bool true, .text " -Infinity ",
    .list [.text "9007199254740992", .text "0x", .bool false],
    .text "\"\\\n\t\x00\x1f\x7f 𝄞] , null"]

theorem mixedValue_reads_back : StaysText mixedValue ∧
    ∃ source, initial mixedValue = .ok source ∧ Json.read? source = some mixedValue := by
  have hinfinity : StaysText (.text " -Infinity ") := by
    have hs : ofText " -Infinity " = .ok (some (.infinite true)) := by decide +kernel
    exact .text hs fun x hx => .inl ⟨true, (Option.some.inj hx).symm⟩
  have hlarge : StaysText (.text "9007199254740992") := by
    have hs : ofText "9007199254740992" =
      .ok (some (.finite false (9007199254740992 * Binary64.one))) := by decide +kernel
    have hx : isUnsafeInteger (.finite false (9007199254740992 * Binary64.one)) = true := by
      decide +kernel
    exact .text hs fun x h => .inr (Option.some.inj h ▸ hx)
  have hword {s : String} (hs : ofText s = .ok none) : StaysText (.text s) :=
    .text hs fun x hx => by cases hx
  have h : StaysText mixedValue := by
    refine .list ?_
    simp only [List.forall_mem_cons]
    refine ⟨.null, .list (List.forall_mem_nil _), .bool true, hinfinity, .list ?_,
      hword (by decide +kernel), List.forall_mem_nil _⟩
    simp only [List.forall_mem_cons]
    exact ⟨hlarge, hword (by decide +kernel), .bool false, List.forall_mem_nil _⟩
  exact ⟨h, read?_initial mixedValue h⟩

end Literal

end ScratchExport
