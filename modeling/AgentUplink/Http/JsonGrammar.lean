import AgentUplink.Http.Json

/-!
# The texts the parser accepts

The parser accepts exactly the texts of the JSON grammar that nest at most three deep, and
returns the value the text denotes. Every function is taken in two directions: what it
returns was read off a text of the grammar, and a text of the grammar is read whatever
follows it, as long as that does not continue it.
-/

open JsonText Fallible

namespace AgentUplink.Http

namespace Parser

open List

/-! ## White space -/

theorem skipWhitespace_append {w : List Char} (hw : Ws w) (l : List Char) :
    skipWhitespace (w ++ l) = skipWhitespace l :=
  dropWhile_append_of_pos hw

theorem skipWhitespace_split (input : List Char) :
    ∃ w, input = w ++ skipWhitespace input ∧ Ws w := by
  refine ⟨input.takeWhile isWs, takeWhile_append_dropWhile.symm, fun c hc => ?_⟩
  exact mem_takeWhile_imp hc

variable {c : Char} {input rest ds t s : List Char} {n fuel : Nat}

variable {l out : List Char} {v : Value}

theorem skipWhitespace_cons (hc : isWs c = false) : skipWhitespace (c :: l) = c :: l := by
  rw [skipWhitespace, dropWhile_cons_of_neg (by simp [hc])]

@[simp] theorem skipWhitespace_skipWhitespace (l : List Char) :
    skipWhitespace (skipWhitespace l) = skipWhitespace l := by
  obtain ⟨w, hl, hw⟩ := skipWhitespace_split l
  conv_rhs => rw [hl, skipWhitespace_append hw]

theorem expectLiteral_eq_ok {literal : List Char} {u : Value} :
    expectLiteral literal v input = .ok (u, rest) ↔ u = v ∧ input = literal ++ rest := by
  unfold expectLiteral
  constructor
  · intro h
    split at h
    · next htake =>
      cases h
      refine ⟨rfl, ?_⟩
      conv_lhs => rw [← take_append_drop literal.length input, htake]
    · cases h
  · rintro ⟨rfl, rfl⟩
    rw [take_left, if_pos rfl, drop_left]

/-! ## Numbers -/

def NoDigit (l : List Char) : Prop := ∀ c ∈ l.head?, c.isDigit = false

theorem NoDigit.of_ends (h : Ends l) : NoDigit l := by
  intro c hc
  rw [Bool.eq_false_iff]
  intro hdigit
  have hend := h c hc
  rw [isEnd_of_isDigit hdigit] at hend
  cases hend

theorem digits_append (hds : ∀ d ∈ ds, d.isDigit = true) (hrest : NoDigit rest) :
    digits (ds ++ rest) = rest := by
  rw [digits, dropWhile_append_of_pos hds]
  cases rest with
  | nil => rfl
  | cons c l => rw [dropWhile_cons_of_neg (by simp [hrest c rfl])]

theorem digits_split (input : List Char) :
    ∃ ds, input = ds ++ digits input ∧ ∀ d ∈ ds, d.isDigit = true :=
  ⟨input.takeWhile Char.isDigit, takeWhile_append_dropWhile.symm,
    fun _ hd => mem_takeWhile_imp hd⟩

theorem someDigits_sound (h : someDigits input = .ok rest) :
    ∃ ds, input = ds ++ rest ∧ Digits ds := by
  unfold someDigits at h
  split at h
  · next hhead =>
    cases h
    obtain ⟨ds, hds, hall⟩ := digits_split input
    refine ⟨ds, hds, ?_, hall⟩
    rintro rfl
    cases input with
    | nil => cases hhead
    | cons c l =>
      have hc : c.isDigit = true := hhead
      have hlen := congrArg List.length hds
      rw [digits, dropWhile_cons_of_pos hc, nil_append, length_cons] at hlen
      have hle := (dropWhile_sublist Char.isDigit (l := l)).length_le
      omega
  · cases h

theorem someDigits_complete (hds : Digits ds) (hrest : NoDigit rest) :
    someDigits (ds ++ rest) = .ok rest := by
  obtain ⟨hne, hall⟩ := hds
  unfold someDigits
  rw [digits_append hall hrest]
  cases ds with
  | nil => exact absurd rfl hne
  | cons c ds =>
    have hc := hall c (mem_cons_self ..)
    simp [hc]

theorem intPart_sound (h : intPart input = .ok rest) : ∃ t, input = t ++ rest ∧ IntPart t := by
  unfold intPart at h
  split at h
  · cases h
    exact ⟨['0'], rfl, .inl rfl⟩
  · next hzero =>
    obtain ⟨ds, rfl, hne, hall⟩ := someDigits_sound h
    refine ⟨ds, rfl, .inr ?_⟩
    cases ds with
    | nil => exact absurd rfl hne
    | cons c ds =>
      refine ⟨c, ds, rfl, hall c (mem_cons_self ..), ?_, fun d hd => hall d ?_⟩
      · rintro rfl
        exact hzero _ rfl
      · exact mem_cons_of_mem _ hd

theorem intPart_complete (ht : IntPart t) (hrest : NoDigit rest) :
    intPart (t ++ rest) = .ok rest := by
  rcases ht with rfl | ⟨c, ds, rfl, hc, hzero, hds⟩
  · rfl
  · have hdigits : Digits (c :: ds) := ⟨cons_ne_nil _ _, by simpa using ⟨hc, hds⟩⟩
    unfold intPart
    split
    · next heq =>
      cases heq
      exact absurd rfl hzero
    · exact someDigits_complete hdigits hrest

theorem fracPart_sound (h : fracPart input = .ok rest) : ∃ t, input = t ++ rest ∧ FracPart t := by
  unfold fracPart at h
  split at h
  · obtain ⟨ds, rfl, hds⟩ := someDigits_sound h
    exact ⟨'.' :: ds, rfl, .inr ⟨ds, rfl, hds⟩⟩
  · cases h
    exact ⟨[], rfl, .inl rfl⟩

theorem fracPart_complete (ht : FracPart t) (hrest : NoDigit rest) (hdot : rest.head? ≠ some '.') :
    fracPart (t ++ rest) = .ok rest := by
  rcases ht with rfl | ⟨ds, rfl, hds⟩
  · unfold fracPart
    split
    · next heq =>
      rw [nil_append] at heq
      rw [heq] at hdot
      exact absurd rfl hdot
    · rfl
  · exact someDigits_complete hds hrest

theorem skipSign_sound (input : List Char) :
    ∃ sign, input = sign ++ skipSign input ∧ (sign = [] ∨ sign = ['+'] ∨ sign = ['-']) := by
  unfold skipSign
  split
  · exact ⟨['+'], rfl, .inr (.inl rfl)⟩
  · exact ⟨['-'], rfl, .inr (.inr rfl)⟩
  · exact ⟨[], rfl, .inl rfl⟩

theorem skipSign_complete {sign : List Char} (hsign : sign = [] ∨ sign = ['+'] ∨ sign = ['-'])
    (hds : Digits ds) : skipSign (sign ++ (ds ++ rest)) = ds ++ rest := by
  obtain ⟨hne, hall⟩ := hds
  rcases hsign with rfl | rfl | rfl
  · cases ds with
    | nil => exact absurd rfl hne
    | cons c ds =>
      have hc := hall c (mem_cons_self ..)
      unfold skipSign
      split
      · next heq =>
        cases heq
        cases hc
      · next heq =>
        cases heq
        cases hc
      · rfl
  · rfl
  · rfl

theorem expPart_sound (h : expPart input = .ok rest) : ∃ t, input = t ++ rest ∧ ExpPart t := by
  have hread : ∀ e l, (e = 'e' ∨ e = 'E') → someDigits (skipSign l) = .ok rest →
      ∃ t, e :: l = t ++ rest ∧ ExpPart t := by
    intro e l he hl
    obtain ⟨sign, hsplit, hsign⟩ := skipSign_sound l
    obtain ⟨ds, hds, hdigits⟩ := someDigits_sound hl
    refine ⟨e :: (sign ++ ds), ?_, .inr ⟨e, sign, ds, rfl, he, hsign, hdigits⟩⟩
    rw [hsplit, hds]
    simp
  unfold expPart at h
  split at h
  · exact hread _ _ (.inl rfl) h
  · exact hread _ _ (.inr rfl) h
  · cases h
    exact ⟨[], rfl, .inl rfl⟩

theorem expPart_complete (ht : ExpPart t) (hrest : Ends rest) : expPart (t ++ rest) = .ok rest := by
  rcases ht with rfl | ⟨e, sign, ds, rfl, he, hsign, hds⟩
  · unfold expPart
    split
    · next heq =>
      rw [nil_append] at heq
      rw [heq] at hrest
      exact absurd (hrest _ rfl) (by decide)
    · next heq =>
      rw [nil_append] at heq
      rw [heq] at hrest
      exact absurd (hrest _ rfl) (by decide)
    · rfl
  · have hdigits : someDigits (skipSign (sign ++ ds ++ rest)) = .ok rest := by
      rw [append_assoc, skipSign_complete hsign hds]
      exact someDigits_complete hds (.of_ends hrest)
    rcases he with rfl | rfl
    · exact hdigits
    · exact hdigits

theorem skipMinus_sound (input : List Char) :
    ∃ minus, input = minus ++ skipMinus input ∧ (minus = [] ∨ minus = ['-']) := by
  unfold skipMinus
  split
  · exact ⟨['-'], rfl, .inr rfl⟩
  · exact ⟨[], rfl, .inl rfl⟩

theorem skipMinus_complete {minus : List Char} (hminus : minus = [] ∨ minus = ['-'])
    (ht : IntPart t) : skipMinus (minus ++ (t ++ rest)) = t ++ rest := by
  rcases hminus with rfl | rfl
  · unfold skipMinus
    split
    · next heq =>
      rcases ht with rfl | ⟨c, ds, rfl, hc, -, -⟩
      · cases heq
      · cases heq
        cases hc
    · rfl
  · rfl

theorem number_sound (h : number input = .ok (v, rest)) :
    ∃ t, input = t ++ rest ∧ Number t ∧ v = .number (String.ofList t) := by
  simp only [number, except_bind_eq_ok] at h
  obtain ⟨l₁, hint, l₂, hfrac, l₃, hexp, hv⟩ := h
  obtain ⟨minus, hsplit, hminus⟩ := skipMinus_sound input
  obtain ⟨int, hl₁, hint'⟩ := intPart_sound hint
  obtain ⟨frac, hl₂, hfrac'⟩ := fracPart_sound hfrac
  obtain ⟨exp, hl₃, hexp'⟩ := expPart_sound hexp
  cases hv
  rw [hl₁, hl₂, hl₃] at hsplit
  have hall : input = (minus ++ (int ++ (frac ++ exp))) ++ rest := by simp [hsplit]
  refine ⟨_, hall, ⟨minus, int, frac, exp, rfl, hminus, hint', hfrac', hexp'⟩, ?_⟩
  rw [hall, length_append, Nat.add_sub_cancel, take_left]

theorem number_complete (ht : Number t) (hrest : Ends rest) :
    number (t ++ rest) = .ok (.number (String.ofList t), rest) := by
  obtain ⟨minus, int, frac, exp, rfl, hminus, hint, hfrac, hexp⟩ := ht
  -- neither the exponent nor what follows continues the digits before it
  have hexpHead : NoDigit (exp ++ rest) ∧ (exp ++ rest).head? ≠ some '.' := by
    rcases hexp with rfl | ⟨e, sign, ds, rfl, he, -, -⟩
    · refine ⟨.of_ends hrest, fun hdot => ?_⟩
      exact absurd (hrest '.' hdot) (by decide)
    · rcases he with rfl | rfl
      · exact ⟨fun c hc => by cases hc; rfl, by simp⟩
      · exact ⟨fun c hc => by cases hc; rfl, by simp⟩
  have hfracHead : NoDigit (frac ++ (exp ++ rest)) := by
    rcases hfrac with rfl | ⟨ds, rfl, -⟩
    · exact hexpHead.1
    · intro c hc
      cases hc
      rfl
  have hall : minus ++ (int ++ (frac ++ exp)) ++ rest
      = minus ++ (int ++ (frac ++ (exp ++ rest))) := by simp
  unfold number
  rw [hall, skipMinus_complete hminus hint, intPart_complete hint hfracHead, except_ok_bind,
    fracPart_complete hfrac hexpHead.1 hexpHead.2, except_ok_bind, expPart_complete hexp hrest,
    except_ok_bind, ← hall, length_append, Nat.add_sub_cancel, take_left]

/-! ## Strings -/

theorem hex4_eq_ok : hex4 input = .ok (n, rest) ↔ ∃ ds, input = ds ++ rest ∧ Hex4 ds n := by
  constructor
  · intro h
    unfold hex4 at h
    split at h
    · next a b c d l =>
      split at h
      · next m hm =>
        cases h
        exact ⟨[a, b, c, d], rfl, rfl, hm⟩
      · cases h
    · cases h
  · rintro ⟨ds, rfl, hlen, hn⟩
    match ds, hlen with
    | [a, b, c, d], _ => simp [hex4, hn]

theorem charFromU32_of_valid (h : n.isValidChar) : charFromU32 n = some (Char.ofNat n) := by
  rw [charFromU32, if_pos h]

theorem isValidChar_unit (hn : n < 0x10000) (hhigh : ¬ IsHighSurrogate n)
    (hlow : ¬ IsLowSurrogate n) : n.isValidChar := by
  unfold IsHighSurrogate at hhigh
  unfold IsLowSurrogate at hlow
  omega

theorem charFromU32_pair {high low : Nat} (hhigh : IsHighSurrogate high)
    (hlow : IsLowSurrogate low) :
    charFromU32 (0x10000 + ((high - 0xD800) <<< 10) + (low - 0xDC00))
      = some (combined high low) := by
  have hshift : (high - 0xD800) <<< 10 = (high - 0xD800) * 0x400 := Nat.shiftLeft_eq _ 10
  rw [hshift]
  refine charFromU32_of_valid ?_
  unfold IsHighSurrogate at hhigh
  unfold IsLowSurrogate at hlow
  omega

theorem unicodeEscape_sound {first : Nat} (hds : Hex4 ds first)
    (h : unicodeEscape first input = .ok (c, rest)) :
    ∃ t, 'u' :: (ds ++ input) = t ++ rest ∧ Escape t c := by
  unfold unicodeEscape at h
  split_ifs at h with hhigh hlow
  · split at h
    · next l =>
      rw [except_bind_eq_ok] at h
      obtain ⟨⟨second, l'⟩, hsecond, h⟩ := h
      obtain ⟨ds', rfl, hds'⟩ := hex4_eq_ok.1 hsecond
      dsimp only at h
      split_ifs at h with hlow
      rw [charFromU32_pair hhigh hlow] at h
      simp only [Except.ok.injEq, Prod.mk.injEq] at h
      obtain ⟨rfl, rfl⟩ := h
      exact ⟨_, by simp, .pair hds hds' hhigh hlow⟩
    · cases h
  · rw [charFromU32_of_valid (isValidChar_unit hds.lt hhigh hlow)] at h
    simp only [Except.ok.injEq, Prod.mk.injEq] at h
    obtain ⟨rfl, rfl⟩ := h
    exact ⟨_, rfl, .unicode hds hhigh hlow⟩

theorem escape_eq_ok : escape input = .ok (c, rest) ↔ ∃ t, input = t ++ rest ∧ Escape t c := by
  constructor
  · intro h
    unfold escape at h
    split at h
    case h_9 l =>
      rw [except_bind_eq_ok] at h
      obtain ⟨⟨first, l'⟩, hfirst, h⟩ := h
      obtain ⟨ds, rfl, hds⟩ := hex4_eq_ok.1 hfirst
      exact unicodeEscape_sound hds h
    case h_10 => cases h
    all_goals
      cases h
      exact ⟨[_], rfl, .short rfl⟩
  · rintro ⟨t, rfl, ht⟩
    cases ht with
    | short he =>
      unfold shortEscape at he
      split at he <;> cases he <;> rfl
    | @unicode ds n hds hhigh hlow =>
      have hfirst : hex4 (ds ++ rest) = .ok (n, rest) := hex4_eq_ok.2 ⟨ds, rfl, hds⟩
      have hhigh' : ¬ (0xD800 ≤ n ∧ n ≤ 0xDBFF) := hhigh
      have hlow' : ¬ (0xDC00 ≤ n ∧ n ≤ 0xDFFF) := hlow
      show (hex4 (ds ++ rest) >>= _) = _
      rw [hfirst, except_ok_bind]
      show unicodeEscape n rest = _
      unfold unicodeEscape
      rw [if_neg hhigh', if_neg hlow', charFromU32_of_valid (isValidChar_unit hds.lt hhigh hlow)]
    | @pair ds ds' high low hds hds' hhigh hlow =>
      have hfirst : hex4 (ds ++ ('\\' :: 'u' :: (ds' ++ rest))) =
          .ok (high, '\\' :: 'u' :: (ds' ++ rest)) := hex4_eq_ok.2 ⟨ds, rfl, hds⟩
      have hsecond : hex4 (ds' ++ rest) = .ok (low, rest) := hex4_eq_ok.2 ⟨ds', rfl, hds'⟩
      have hhigh' : 0xD800 ≤ high ∧ high ≤ 0xDBFF := hhigh
      have hlow' : 0xDC00 ≤ low ∧ low ≤ 0xDFFF := hlow
      simp only [cons_append, append_assoc]
      show (hex4 (ds ++ ('\\' :: 'u' :: (ds' ++ rest))) >>= _) = _
      rw [hfirst, except_ok_bind]
      show unicodeEscape high ('\\' :: 'u' :: (ds' ++ rest)) = _
      unfold unicodeEscape
      rw [if_pos hhigh']
      show (hex4 (ds' ++ rest) >>= _) = _
      rw [hsecond, except_ok_bind]
      dsimp only
      rw [if_neg (not_not.2 hlow'), charFromU32_pair hhigh hlow]

theorem isPlain_iff : isPlain c = true ↔ 0x20 ≤ c.toNat ∧ c ≠ '"' ∧ c ≠ '\\' := by
  simp [isPlain]
  tauto

theorem chars_append_plain {p : List Char} (hp : ∀ c ∈ p, isPlain c = true) (h : Chars t s) :
    Chars (p ++ t) (p ++ s) := by
  induction p with
  | nil => exact h
  | cons c p ih =>
    obtain ⟨hc, hquote, hescape⟩ := isPlain_iff.1 (hp c (List.mem_cons_self ..))
    exact .plain hc hquote hescape (ih fun d hd => hp d (List.mem_cons_of_mem _ hd))

theorem stringFor_sound (h : stringFor fuel out input = .ok (s, rest)) :
    ∃ t s', input = t ++ '"' :: rest ∧ s = out ++ s' ∧ Chars t s' := by
  induction fuel generalizing out input with
  | zero => cases h
  | succ fuel ih =>
    have hsplit := takeWhile_append_dropWhile (p := isPlain) (l := input)
    have hplain : ∀ c ∈ input.takeWhile isPlain, isPlain c = true :=
      fun c hc => mem_takeWhile_imp hc
    rw [stringFor] at h
    split at h
    · next heq =>
      cases h
      rw [heq] at hsplit
      exact ⟨_, _, hsplit.symm, rfl, by simpa using chars_append_plain hplain .nil⟩
    · next l heq =>
      rw [except_bind_eq_ok] at h
      obtain ⟨⟨c, l'⟩, hescape, h⟩ := h
      obtain ⟨e, rfl, he⟩ := escape_eq_ok.1 hescape
      obtain ⟨t, s', rfl, rfl, ht⟩ := ih h
      rw [heq] at hsplit
      refine ⟨_, _, ?_, ?_, chars_append_plain hplain (.escape he ht)⟩
      · exact hsplit.symm.trans (by simp)
      · simp
    · cases h

theorem stringFor_plain (hc : isPlain c = true) (out input : List Char) :
    stringFor fuel out (c :: input) = stringFor fuel (out ++ [c]) input := by
  cases fuel with
  | zero => rfl
  | succ fuel =>
    simp only [stringFor, dropWhile_cons_of_pos hc, takeWhile_cons_of_pos hc,
      append_assoc, singleton_append]

theorem stringFor_complete (h : Chars t s) (hfuel : t.length < fuel) (rest : List Char) :
    stringFor fuel out (t ++ '"' :: rest) = .ok (out ++ s, rest) := by
  induction h generalizing fuel out with
  | nil =>
    obtain ⟨fuel, rfl⟩ := Nat.exists_eq_succ_of_ne_zero (Nat.ne_of_gt hfuel)
    simp [stringFor, isPlain]
  | plain hc hquote hescape h ih =>
    rw [List.cons_append, stringFor_plain (isPlain_iff.2 ⟨hc, hquote, hescape⟩),
      ih (Nat.lt_of_succ_lt hfuel), List.append_assoc, List.singleton_append]
  | @escape e t s c he h ih =>
    obtain ⟨fuel, rfl⟩ := Nat.exists_eq_succ_of_ne_zero (Nat.ne_of_gt (Nat.zero_lt_of_lt hfuel))
    have hread : escape (e ++ (t ++ '"' :: rest)) = .ok (c, t ++ '"' :: rest) :=
      escape_eq_ok.2 ⟨e, rfl, he⟩
    have hplain : isPlain '\\' = false := rfl
    have hdrop : ('\\' :: (e ++ (t ++ '"' :: rest))).dropWhile isPlain
        = '\\' :: (e ++ (t ++ '"' :: rest)) := List.dropWhile_cons_of_neg (by simp [hplain])
    have htake : ('\\' :: (e ++ (t ++ '"' :: rest))).takeWhile isPlain = [] :=
      takeWhile_cons_of_neg (by simp [hplain])
    simp only [length_cons, length_append] at hfuel
    rw [cons_append, append_assoc, stringFor, hdrop, htake]
    show (escape (e ++ (t ++ '"' :: rest)) >>= _) = _
    rw [hread, except_ok_bind]
    show stringFor fuel (out ++ [] ++ [c]) (t ++ '"' :: rest) = _
    rw [ih (by omega)]
    simp

theorem string_sound {s : String} (h : string input = .ok (s, rest)) :
    ∃ t cs, input = t ++ '"' :: rest ∧ Chars t cs ∧ s = String.ofList cs := by
  simp only [string, except_bind_eq_ok] at h
  obtain ⟨⟨cs, l⟩, hstring, h⟩ := h
  cases h
  obtain ⟨t, cs', rfl, rfl, ht⟩ := stringFor_sound hstring
  exact ⟨t, _, rfl, ht, rfl⟩

theorem string_complete {cs : List Char} (h : Chars t cs) (rest : List Char) :
    string (t ++ '"' :: rest) = .ok (String.ofList cs, rest) := by
  unfold string
  rw [stringFor_complete h (by simp only [length_append, length_cons]; omega)]
  rfl

/-! ## Items with commas between them -/

/-- The item parser `item` reads the texts of `I`, and `P` says which lists of items it builds. -/
structure Items {α : Type} (item : List α → List Char → Except CodecError (α × List Char))
    (I : List Char → α → Prop) (P : List α → Prop) : Prop where
  sound : ∀ items {input a rest}, item items input = .ok (a, rest) → P items →
    P (items ++ [a]) ∧ ∃ t, input = t ++ rest ∧ I t a
  complete : ∀ items {t a rest}, P (items ++ [a]) → I t a → Ends rest →
    item items (t ++ rest) = .ok (a, rest)
  nil : P []
  init : ∀ {items more}, P (items ++ more) → P items
  head : ∀ {t a}, I t a → ∃ w c t', t = w ++ c :: t' ∧ Ws w ∧ isEnd c = false
  skip : ∀ items input, item items (skipWhitespace input) = item items input

section Separated

variable {α : Type} {item : List α → List Char → Except CodecError (α × List Char)}
  {close : Char} {I : List Char → α → Prop} {P : List α → Prop} {items as bs : List α}
  {mk : List α → Value}

theorem separated_sound (hitem : Items item I P) (hinv : P items)
    (h : separated item close fuel items input = .ok (as, rest)) :
    P as ∧ ∃ t bs, input = t ++ close :: rest ∧ as = items ++ bs ∧ Separated (Trailed I) t bs := by
  induction fuel generalizing items input with
  | zero => cases h
  | succ fuel ih =>
    rw [separated, except_bind_eq_ok] at h
    obtain ⟨⟨a, l⟩, ha, h⟩ := h
    obtain ⟨hinv', t, rfl, ht⟩ := hitem.sound items ha hinv
    obtain ⟨w, hl, hw⟩ := skipWhitespace_split l
    have htrailed : Trailed I (t ++ w) a := ⟨t, w, rfl, ht, hw⟩
    dsimp only at h
    split at h
    · next c l' hskip =>
      rw [hskip] at hl
      split_ifs at h with hcomma hclose
      · subst hcomma
        obtain ⟨hall, t', bs, rfl, rfl, hrest⟩ := ih hinv' h
        refine ⟨hall, _, _, ?_, ?_, .more htrailed hrest⟩
        · simp [hl]
        · simp
      · subst hclose
        cases h
        exact ⟨hinv', _, _, by simp [hl], rfl, .last htrailed⟩
    · cases h

theorem separated_complete (hitem : Items item I P) (hclose : isEnd close = true)
    (hws : isWs close = false) (hcomma : close ≠ ',') (h : Separated (Trailed I) t bs)
    (items : List α) (hinv : P (items ++ bs)) (hfuel : t.length < fuel) (rest : List Char) :
    separated item close fuel items (t ++ close :: rest) = .ok (items ++ bs, rest) := by
  induction h generalizing fuel items with
  | @last t a h =>
    obtain ⟨fuel, rfl⟩ := Nat.exists_eq_succ_of_ne_zero (Nat.ne_of_gt (Nat.zero_lt_of_lt hfuel))
    obtain ⟨u, w, rfl, hu, hw⟩ := h
    have hread := hitem.complete items hinv hu (hw.ends (ends_cons (l := rest) hclose))
    rw [separated, append_assoc, hread, except_ok_bind]
    dsimp only
    rw [skipWhitespace_append hw, skipWhitespace_cons hws]
    dsimp only
    rw [if_neg hcomma, if_pos rfl]
  | @more t l a as h hrest ih =>
    obtain ⟨fuel, rfl⟩ := Nat.exists_eq_succ_of_ne_zero (Nat.ne_of_gt (Nat.zero_lt_of_lt hfuel))
    obtain ⟨u, w, rfl, hu, hw⟩ := h
    have hinv' : P ((items ++ [a]) ++ as) := by simpa using hinv
    have hread := hitem.complete items (hitem.init hinv') hu
      (hw.ends (ends_cons (c := ',') (l := l ++ close :: rest) rfl))
    simp only [length_append, length_cons] at hfuel
    rw [separated, append_assoc, append_assoc, cons_append, hread, except_ok_bind]
    dsimp only
    rw [skipWhitespace_append hw, skipWhitespace_cons rfl]
    dsimp only
    rw [if_pos rfl, ih _ hinv' (by omega)]
    simp

theorem separated_skipWhitespace (hitem : Items item I P) (input : List Char) :
    separated item close fuel items (skipWhitespace input)
      = separated item close fuel items input := by
  cases fuel with
  | zero => rfl
  | succ fuel => rw [separated, separated, hitem.skip]

variable (item close) in
/-- What stands behind the opening bracket of an array or an object. -/
def bracketed (mk : List α → Value) (l : List Char) : Except CodecError (Value × List Char) :=
  if (skipWhitespace l).head? = some close then .ok (mk [], (skipWhitespace l).tail)
  else do
    let (as, rest) ← separated item close (l.length + 1) [] (skipWhitespace l)
    .ok (mk as, rest)

theorem bracketed_sound (hitem : Items item I P)
    (h : bracketed item close mk input = .ok (v, rest)) :
    ∃ t, input = t ++ close :: rest ∧
      (Ws t ∧ v = mk [] ∨ ∃ as, Separated (Trailed I) t as ∧ P as ∧ v = mk as) := by
  unfold bracketed at h
  split_ifs at h with hclose
  · obtain ⟨w, hl, hw⟩ := skipWhitespace_split input
    obtain ⟨l, hskip⟩ := List.head?_eq_some_iff.1 hclose
    rw [hskip] at h hl
    cases h
    exact ⟨w, hl, .inl ⟨hw, rfl⟩⟩
  · rw [separated_skipWhitespace hitem, except_bind_eq_ok] at h
    obtain ⟨⟨as, l⟩, has, h⟩ := h
    cases h
    obtain ⟨hinv, t, bs, hl, rfl, ht⟩ := separated_sound hitem hitem.nil has
    exact ⟨t, hl, .inr ⟨_, ht, hinv, rfl⟩⟩

theorem bracketed_empty {w : List Char} (hw : Ws w) (hws : isWs close = false) :
    bracketed item close mk (w ++ close :: rest) = .ok (mk [], rest) := by
  unfold bracketed
  rw [skipWhitespace_append hw, skipWhitespace_cons hws]
  exact if_pos rfl

theorem bracketed_complete (hitem : Items item I P) (hclose : isEnd close = true)
    (hws : isWs close = false) (hcomma : close ≠ ',') (h : Separated (Trailed I) t as)
    (hinv : P as) : bracketed item close mk (t ++ close :: rest) = .ok (mk as, rest) := by
  -- the first item does not begin with `close`
  have hfirst : (skipWhitespace (t ++ close :: rest)).head? ≠ some close := by
    obtain ⟨u, l, a, rfl, hu⟩ : ∃ u l a, t = u ++ l ∧ I u a := by
      cases h with
      | last h =>
        obtain ⟨u, w, rfl, hu, -⟩ := h
        exact ⟨u, w, _, rfl, hu⟩
      | more h _ =>
        obtain ⟨u, w, rfl, hu, -⟩ := h
        exact ⟨u, _, _, append_assoc .., hu⟩
    obtain ⟨w, c, u, rfl, hw, hc⟩ := hitem.head hu
    rw [append_assoc, append_assoc, skipWhitespace_append hw, cons_append,
      skipWhitespace_cons (isWs_of_not_isEnd hc)]
    rintro ⟨⟩
    cases hclose.symm.trans hc
  unfold bracketed
  rw [if_neg hfirst, separated_skipWhitespace hitem, separated_complete hitem hclose hws
    hcomma h [] hinv (by simp only [length_append, length_cons]; omega)]
  rfl

end Separated

/-! ## Values -/

/-- The parser `value` reads the texts of `E`. -/
structure Accepts (value : List Char → Except CodecError (Value × List Char))
    (E : List Char → Value → Prop) : Prop where
  sound : ∀ {input v rest}, value input = .ok (v, rest) → ∃ t, input = t ++ rest ∧ E t v
  complete : ∀ {t v}, E t v → ∀ {rest}, Ends rest → value (t ++ rest) = .ok (v, rest)
  head : ∀ {t v}, E t v → ∃ c t', t = c :: t' ∧ isEnd c = false

theorem scalar_of_number (hc : c = '-' ∨ c.isDigit = true) : scalar (c :: l) = number (c :: l) := by
  rw [scalar, if_pos hc]
  all_goals
    rintro rfl
    exact absurd hc (by decide)

theorem scalar_accepts : Accepts scalar Scalar where
  sound := by
    intro input v rest h
    unfold scalar at h
    split at h
    · next l =>
      rw [except_bind_eq_ok] at h
      obtain ⟨⟨s, l'⟩, hs, h⟩ := h
      cases h
      obtain ⟨t, cs, rfl, ht, rfl⟩ := string_sound hs
      exact ⟨'"' :: (t ++ ['"']), by simp, .string ht⟩
    · obtain ⟨rfl, hl⟩ := expectLiteral_eq_ok.1 h
      exact ⟨_, hl, .literalTrue⟩
    · obtain ⟨rfl, hl⟩ := expectLiteral_eq_ok.1 h
      exact ⟨_, hl, .literalFalse⟩
    · obtain ⟨rfl, hl⟩ := expectLiteral_eq_ok.1 h
      exact ⟨_, hl, .literalNull⟩
    · split_ifs at h
      obtain ⟨t, hl, ht, rfl⟩ := number_sound h
      exact ⟨t, hl, .number ht⟩
    · cases h
  complete := by
    intro t v h rest hrest
    cases h with
    | literalNull | literalTrue | literalFalse => exact expectLiteral_eq_ok.2 ⟨rfl, rfl⟩
    | string h =>
      rw [cons_append, append_assoc, singleton_append]
      show (string _ >>= _) = _
      rw [string_complete h, except_ok_bind]
    | number h =>
      have hread := number_complete h hrest
      obtain ⟨c, l, rfl, hc⟩ := h.head
      rw [cons_append] at hread ⊢
      rw [scalar_of_number hc, hread]
  head := by
    intro t v h
    obtain ⟨c, t', ht, hc, -, -⟩ := h.head
    exact ⟨c, t', ht, hc⟩

def Keyed (entries : List (String × Value)) : Prop := (entries.map Prod.fst).Nodup

theorem keyed_append {entries more : List (String × Value)} : Keyed (entries ++ more) ↔
    Keyed entries ∧ Keyed more ∧ ∀ m ∈ more, m.1 ∉ entries.map Prod.fst := by
  unfold Keyed
  rw [map_append, nodup_append']
  refine and_congr_right fun _ => and_congr_right fun _ => ?_
  rw [disjoint_comm]
  exact forall_mem_map

section Compound

variable {value : List Char → Except CodecError (Value × List Char)}
  {E : List Char → Value → Prop}

section

variable (ha : Accepts value E)
include ha

theorem element_items : Items (element value) (Element E) fun _ => True where
  sound := by
    intro items input v rest h _
    obtain ⟨w, hl, hw⟩ := skipWhitespace_split input
    obtain ⟨t, ht, hE⟩ := ha.sound h
    exact ⟨trivial, w ++ t, by rw [hl, ht, append_assoc], w, t, rfl, hw, hE⟩
  complete := by
    rintro items _ v rest - ⟨w, t, rfl, hw, hE⟩ hrest
    have hread := ha.complete hE hrest
    obtain ⟨c, t', rfl, hc⟩ := ha.head hE
    rw [element, append_assoc, skipWhitespace_append hw, cons_append,
      skipWhitespace_cons (isWs_of_not_isEnd hc), ← cons_append, hread]
  nil := trivial
  init _ := trivial
  head := by
    rintro _ v ⟨w, t, rfl, hw, hE⟩
    obtain ⟨c, t', rfl, hc⟩ := ha.head hE
    exact ⟨w, c, t', rfl, hw, hc⟩
  skip items input := by simp [element]

theorem member_items : Items (member value) (Member E) Keyed where
  sound := by
    intro entries input m rest h hkeyed
    obtain ⟨w, hl, hw⟩ := skipWhitespace_split input
    unfold member at h
    split at h
    · next l hskip =>
      rw [except_bind_eq_ok] at h
      obtain ⟨⟨key, l₁⟩, hkey, h⟩ := h
      obtain ⟨k, cs, rfl, hk, rfl⟩ := string_sound hkey
      obtain ⟨w', hl₁, hw'⟩ := skipWhitespace_split l₁
      dsimp only at h
      split_ifs at h with hnew
      split at h
      · next l₂ hskip' =>
        rw [except_bind_eq_ok] at h
        obtain ⟨⟨v, l₃⟩, hv, h⟩ := h
        cases h
        obtain ⟨-, t, ht, helement⟩ := (element_items ha).sound [] hv trivial
        refine ⟨keyed_append.2 ⟨hkeyed, nodup_singleton _, by simpa using hnew⟩,
          w ++ '"' :: (k ++ '"' :: (w' ++ ':' :: t)), ?_, w, k, cs, w', t, rfl, hw, hk, hw', rfl,
          helement⟩
        rw [hl, hskip, hl₁, hskip', ht]
        simp
      · cases h
    · cases h
  complete := by
    rintro entries _ m rest hkeyed ⟨w, k, key, w', t, rfl, hw, hk, hw', hm, helement⟩ hrest
    have hread : value (skipWhitespace (t ++ rest)) = .ok (m.2, rest) :=
      (element_items ha).complete [] trivial helement hrest
    have hnew := (keyed_append.1 hkeyed).2.2 m (mem_singleton_self m)
    rw [hm] at hnew
    have hall : w ++ '"' :: (k ++ '"' :: (w' ++ ':' :: t)) ++ rest
        = w ++ '"' :: (k ++ '"' :: (w' ++ ':' :: (t ++ rest))) := by simp
    unfold member
    rw [hall, skipWhitespace_append hw, skipWhitespace_cons rfl]
    show (string _ >>= _) = _
    rw [string_complete hk, except_ok_bind]
    dsimp only
    rw [if_neg hnew, skipWhitespace_append hw', skipWhitespace_cons rfl]
    show (value _ >>= _) = _
    rw [hread, except_ok_bind, ← hm]
  nil := nodup_nil
  init h := (keyed_append.1 h).1
  head := by
    rintro _ m ⟨w, k, key, w', u, rfl, hw, -⟩
    exact ⟨w, '"', _, rfl, hw, rfl⟩
  skip entries input := by simp [member]

end

theorem array_eq (l : List Char) : array value l = bracketed (element value) ']' .array l := by
  unfold array bracketed
  split <;> simp_all [List.head?_eq_some_iff]

theorem object_eq (l : List Char) : object value l = bracketed (member value) '}' .object l := by
  unfold object bracketed
  split <;> simp_all [List.head?_eq_some_iff]

theorem array_sound (ha : Accepts value E) (h : array value input = .ok (v, rest)) :
    ∃ t, '[' :: input = t ++ rest ∧ Compound E t v := by
  rw [array_eq] at h
  obtain ⟨t, rfl, ⟨ht, rfl⟩ | ⟨vs, ht, -, rfl⟩⟩ := bracketed_sound (element_items ha) h
  · exact ⟨'[' :: (t ++ [']']), by simp, .emptyArray ht⟩
  · exact ⟨'[' :: (t ++ [']']), by simp, .array ht⟩

theorem object_sound (ha : Accepts value E) (h : object value input = .ok (v, rest)) :
    ∃ t, '{' :: input = t ++ rest ∧ Compound E t v := by
  rw [object_eq] at h
  obtain ⟨t, rfl, ⟨ht, rfl⟩ | ⟨ms, ht, hkeys, rfl⟩⟩ := bracketed_sound (member_items ha) h
  · exact ⟨'{' :: (t ++ ['}']), by simp, .emptyObject ht⟩
  · exact ⟨'{' :: (t ++ ['}']), by simp, .object ht hkeys⟩

theorem compound_complete (ha : Accepts value E) (h : Compound E t v) (rest : List Char) :
    ∃ l, (t ++ rest = '[' :: l ∧ array value l = .ok (v, rest)) ∨
      (t ++ rest = '{' :: l ∧ object value l = .ok (v, rest)) := by
  simp only [array_eq, object_eq]
  cases h with
  | @emptyArray w hw => exact ⟨w ++ ']' :: rest, .inl ⟨by simp, bracketed_empty hw rfl⟩⟩
  | @array t vs h =>
    exact ⟨t ++ ']' :: rest, .inl ⟨by simp,
      bracketed_complete (element_items ha) rfl rfl (by decide) h trivial⟩⟩
  | @emptyObject w hw => exact ⟨w ++ '}' :: rest, .inr ⟨by simp, bracketed_empty hw rfl⟩⟩
  | @object t ms h hkeys =>
    exact ⟨t ++ '}' :: rest, .inr ⟨by simp,
      bracketed_complete (member_items ha) rfl rfl (by decide) h hkeys⟩⟩

end Compound

theorem value_zero (l : List Char) : value 0 l
    = if l.head? = some '{' ∨ l.head? = some '[' then .error .nestingTooDeep else scalar l := by
  cases l <;> simp [value, scalar]

theorem value_succ (levels : Nat) (l : List Char) : value (levels + 1) l
    = if l.head? = some '{' then object (value levels) l.tail
      else if l.head? = some '[' then array (value levels) l.tail
      else scalar l := by
  cases l <;> simp [value, scalar]

theorem value_of_scalar (h : Scalar t v) (levels : Nat) (rest : List Char) :
    value levels (t ++ rest) = scalar (t ++ rest) := by
  obtain ⟨c, t', rfl, -, harray, hobject⟩ := h.head
  cases levels with
  | zero => rw [value_zero, if_neg (by simp [harray, hobject])]
  | succ levels => rw [value_succ, if_neg (by simp [hobject]), if_neg (by simp [harray])]

/-- The values read at a place where arrays and objects may nest `levels` deep. -/
theorem value_accepts (levels : Nat) : Accepts (value levels) (Denotes levels) := by
  induction levels with
  | zero =>
    refine ⟨fun h => ?_, fun h rest hrest => ?_, Denotes.head⟩
    · rw [value_zero] at h
      split_ifs at h
      exact scalar_accepts.sound h
    · rw [value_of_scalar h]
      exact scalar_accepts.complete h hrest
  | succ levels ih =>
    refine ⟨fun {input v rest} h => ?_, fun h rest hrest => ?_, Denotes.head⟩
    · rw [value_succ] at h
      split_ifs at h with hobject harray
      · obtain ⟨l, rfl⟩ := List.head?_eq_some_iff.1 hobject
        obtain ⟨t, ht, hcompound⟩ := object_sound ih h
        exact ⟨t, ht, .inr hcompound⟩
      · obtain ⟨l, rfl⟩ := List.head?_eq_some_iff.1 harray
        obtain ⟨t, ht, hcompound⟩ := array_sound ih h
        exact ⟨t, ht, .inr hcompound⟩
      · obtain ⟨t, ht, hscalar⟩ := scalar_accepts.sound h
        exact ⟨t, ht, .inl hscalar⟩
    · rcases h with h | h
      · rw [value_of_scalar h]
        exact scalar_accepts.complete h hrest
      · obtain ⟨l, ⟨hl, hread⟩ | ⟨hl, hread⟩⟩ := compound_complete ih h rest
        · rw [hl, value, if_neg (by decide), if_pos rfl, hread]
        · rw [hl, value, if_pos rfl, hread]

theorem text_iff {levels : Nat} : Text levels input v ↔
    ∃ rest, value levels (skipWhitespace input) = .ok (v, rest) ∧ skipWhitespace rest = [] := by
  have ha := value_accepts levels
  constructor
  · rintro ⟨t, w, rfl, ht, hw⟩
    have hends : Ends w := by simpa using hw.ends (nofun : Ends [])
    exact ⟨w, (element_items ha).complete [] trivial ht hends,
      by simpa [skipWhitespace, Ws] using hw⟩
  · rintro ⟨rest, hvalue, hskip⟩
    obtain ⟨-, t, hl, ht⟩ := (element_items ha).sound [] hvalue trivial
    obtain ⟨w, hw, hws⟩ := skipWhitespace_split rest
    rw [hskip, append_nil] at hw
    subst hw
    exact ⟨t, rest, hl, ht, hws⟩

end Parser

open AgentUplink.Http.Parser in
theorem parse_eq_ok {bytes : List UInt8} {v : Value} :
    parse bytes = .ok v ↔ ∃ s, bytes = Utf8.bytes s ∧ Text maxDepth s.toList v := by
  unfold parse
  constructor
  · intro h
    split at h
    · cases h
    · next s hs =>
      rw [except_bind_eq_ok] at h
      obtain ⟨⟨u, l⟩, hvalue, h⟩ := h
      dsimp only at h
      split_ifs at h with hskip
      cases h
      exact ⟨s, Utf8.ofBytes?_eq_some.1 hs, text_iff.2 ⟨l, hvalue, not_not.1 hskip⟩⟩
  · rintro ⟨s, hbytes, htext⟩
    obtain ⟨rest, hread, hskip⟩ := text_iff.1 htext
    rw [Utf8.ofBytes?_eq_some.2 hbytes]
    show (value maxDepth (skipWhitespace s.toList) >>= _) = _
    rw [hread, except_ok_bind]
    dsimp only
    rw [if_neg (not_not.2 hskip)]

/-! ## What the writer writes -/

theorem hexNumber_leftpad {n : Nat} (h : n < 0x80) :
    Hex4 (List.leftpad 4 '0' (Nat.toDigits 16 n)) n := by
  have hall : ∀ n < 0x80, (List.leftpad 4 '0' (Nat.toDigits 16 n)).length = 4 ∧
      hexNumber 0 (List.leftpad 4 '0' (Nat.toDigits 16 n)) = some n := by decide
  exact hall n h

theorem chars_escaped (c : Char) {t s : List Char} (h : Chars t s) :
    Chars (escaped c ++ t) (c :: s) := by
  unfold escaped
  split_ifs with hquote hslash hn hr ht hcontrol
  · subst hquote
    exact .escape (.short rfl) h
  · subst hslash
    exact .escape (.short rfl) h
  · subst hn
    exact .escape (.short rfl) h
  · subst hr
    exact .escape (.short rfl) h
  · subst ht
    exact .escape (.short rfl) h
  · have hlt : c.toNat < 0x80 := by
      rcases hcontrol with hlow | rfl
      · omega
      · decide
    have hunit : Escape ('u' :: List.leftpad 4 '0' (Nat.toDigits 16 c.toNat))
        (Char.ofNat c.toNat) := by
      refine .unicode (hexNumber_leftpad hlt) ?_ ?_
      · unfold IsHighSurrogate
        omega
      · unfold IsLowSurrogate
        omega
    rw [Char.ofNat_toNat] at hunit
    exact .escape hunit h
  · exact .plain (by omega) hquote hslash h

theorem chars_flatMap_escaped (s : List Char) : Chars (s.flatMap escaped) s := by
  induction s with
  | nil => exact .nil
  | cons c s ih => exact chars_escaped c ih

theorem scalar_writeString (s : String) : Scalar (writeString s []) (.string s) := by
  have h := Scalar.string (chars_flatMap_escaped s.toList)
  rw [String.ofList_toList] at h
  exact h

end AgentUplink.Http
