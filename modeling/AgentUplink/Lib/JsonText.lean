import Mathlib

/-!
# The grammar of JSON texts

The grammar of RFC 8259 as a relation between a text and the value it denotes. A number
denotes its own lexeme. In a string a pair of surrogate escapes denotes one character and a
surrogate on its own denotes nothing. `Denotes d` is the grammar of the values whose arrays
and objects nest at most `d` deep and whose objects have no key twice.
-/

namespace JsonText

inductive Value
  | null
  | bool (value : Bool)
  | number (lexeme : String)
  | string (value : String)
  | array (items : List Value)
  | object (members : List (String × Value))

def isWs (c : Char) : Bool := c == ' ' || c == '\t' || c == '\n' || c == '\r'

section

variable (l : List Char)

def Ws : Prop := ∀ c ∈ l, isWs c = true

/-! ## Numbers -/

def Digits : Prop := l ≠ [] ∧ ∀ c ∈ l, c.isDigit = true

def IntPart : Prop :=
  l = ['0'] ∨ ∃ c ds, l = c :: ds ∧ c.isDigit = true ∧ c ≠ '0' ∧ ∀ d ∈ ds, d.isDigit = true

def FracPart : Prop := l = [] ∨ ∃ ds, l = '.' :: ds ∧ Digits ds

def ExpPart : Prop :=
  l = [] ∨ ∃ e sign ds, l = e :: (sign ++ ds) ∧ (e = 'e' ∨ e = 'E') ∧
    (sign = [] ∨ sign = ['+'] ∨ sign = ['-']) ∧ Digits ds

def Number : Prop :=
  ∃ minus int frac exp, l = minus ++ (int ++ (frac ++ exp)) ∧ (minus = [] ∨ minus = ['-']) ∧
    IntPart int ∧ FracPart frac ∧ ExpPart exp

/-! ## Strings -/

/-- The characters that an escape of two characters stands for. -/
def shortEscape : Char → Option Char
  | '"' => some '"'
  | '\\' => some '\\'
  | '/' => some '/'
  | 'b' => some (Char.ofNat 0x08)
  | 'f' => some (Char.ofNat 0x0C)
  | 'n' => some '\n'
  | 'r' => some '\r'
  | 't' => some '\t'
  | _ => none

def hexValue (c : Char) : Option Nat :=
  if '0' ≤ c ∧ c ≤ '9' then some (c.toNat - '0'.toNat)
  else if 'a' ≤ c ∧ c ≤ 'f' then some (c.toNat - 'a'.toNat + 10)
  else if 'A' ≤ c ∧ c ≤ 'F' then some (c.toNat - 'A'.toNat + 10)
  else none

/-- The number that some hexadecimal digits denote, after `n`. -/
def hexNumber : Nat → List Char → Option Nat
  | n, [] => some n
  | n, c :: cs =>
    match hexValue c with
    | some d => hexNumber (16 * n + d) cs
    | none => none

/-- The four digits of an escape `\u`. -/
def Hex4 (n : Nat) : Prop := l.length = 4 ∧ hexNumber 0 l = some n

end

def IsHighSurrogate (n : Nat) : Prop := 0xD800 ≤ n ∧ n ≤ 0xDBFF

def IsLowSurrogate (n : Nat) : Prop := 0xDC00 ≤ n ∧ n ≤ 0xDFFF

/-- The character of a pair of surrogates. -/
def combined (high low : Nat) : Char :=
  Char.ofNat (0x10000 + (high - 0xD800) * 0x400 + (low - 0xDC00))

/-- What can follow a backslash, and the character that is meant. -/
inductive Escape : List Char → Char → Prop
  | short {e c : Char} (he : shortEscape e = some c) : Escape [e] c
  | unicode {ds : List Char} {n : Nat} (hds : Hex4 ds n) (hhigh : ¬ IsHighSurrogate n)
      (hlow : ¬ IsLowSurrogate n) : Escape ('u' :: ds) (Char.ofNat n)
  | pair {ds ds' : List Char} {high low : Nat} (hds : Hex4 ds high) (hds' : Hex4 ds' low)
      (hhigh : IsHighSurrogate high) (hlow : IsLowSurrogate low) :
      Escape ('u' :: (ds ++ '\\' :: 'u' :: ds')) (combined high low)

/-- What stands between the quotation marks of a string, and the characters it denotes. -/
inductive Chars : List Char → List Char → Prop
  | nil : Chars [] []
  | plain {c : Char} {t s : List Char} (hc : 0x20 ≤ c.toNat) (hquote : c ≠ '"')
      (hescape : c ≠ '\\') (h : Chars t s) : Chars (c :: t) (c :: s)
  | escape {e t s : List Char} {c : Char} (he : Escape e c) (h : Chars t s) :
      Chars ('\\' :: (e ++ t)) (c :: s)

/-! ## Values -/

/-- A value that is neither an array nor an object. -/
inductive Scalar : List Char → Value → Prop
  | literalNull : Scalar ['n', 'u', 'l', 'l'] .null
  | literalTrue : Scalar ['t', 'r', 'u', 'e'] (.bool true)
  | literalFalse : Scalar ['f', 'a', 'l', 's', 'e'] (.bool false)
  | number {l : List Char} (h : Number l) : Scalar l (.number (String.ofList l))
  | string {t s : List Char} (h : Chars t s) :
      Scalar ('"' :: (t ++ ['"'])) (.string (String.ofList s))

/-- Items of one kind with commas between them. -/
inductive Separated {α : Type} (I : List Char → α → Prop) : List Char → List α → Prop
  | last {t : List Char} {a : α} (h : I t a) : Separated I t [a]
  | more {t rest : List Char} {a : α} {as : List α} (h : I t a) (hrest : Separated I rest as) :
      Separated I (t ++ ',' :: rest) (a :: as)

/-- White space may follow. -/
def Trailed {α : Type} (I : List Char → α → Prop) (l : List Char) (a : α) : Prop :=
  ∃ t w, l = t ++ w ∧ I t a ∧ Ws w

section

variable (E : List Char → Value → Prop)

/-- White space may stand before the value. -/
def Element (l : List Char) (v : Value) : Prop := ∃ w t, l = w ++ t ∧ Ws w ∧ E t v

/-- One member of an object: a key, a colon and a value. -/
def Member (l : List Char) (m : String × Value) : Prop :=
  ∃ w k key w' t, l = w ++ '"' :: (k ++ '"' :: (w' ++ ':' :: t)) ∧ Ws w ∧ Chars k key ∧ Ws w' ∧
    m.1 = String.ofList key ∧ Element E t m.2

inductive Compound : List Char → Value → Prop
  | emptyArray {w : List Char} (hw : Ws w) : Compound ('[' :: (w ++ [']'])) (.array [])
  | array {t : List Char} {vs : List Value} (h : Separated (Trailed (Element E)) t vs) :
      Compound ('[' :: (t ++ [']'])) (.array vs)
  | emptyObject {w : List Char} (hw : Ws w) : Compound ('{' :: (w ++ ['}'])) (.object [])
  | object {t : List Char} {ms : List (String × Value)} (h : Separated (Trailed (Member E)) t ms)
      (hkeys : (ms.map Prod.fst).Nodup) : Compound ('{' :: (t ++ ['}'])) (.object ms)

end

/-- The values that nest at most `d` deep. -/
def Denotes : Nat → List Char → Value → Prop
  | 0, t, v => Scalar t v
  | d + 1, t, v => Scalar t v ∨ Compound (Denotes d) t v

def Text (d : Nat) : List Char → Value → Prop := Trailed (Element (Denotes d))

/-! ## Hexadecimal numbers -/

variable {c : Char} {d : Nat} {l t : List Char} {v : Value} {α : Type} {I : List Char → α → Prop}

theorem hexValue_lt (h : hexValue c = some d) : d < 16 := by
  unfold hexValue at h
  simp only [Char.le_def, UInt32.le_iff_toNat_le] at h
  have hval : c.val.toNat = c.toNat := rfl
  have h0 : '0'.toNat = 48 ∧ '0'.val.toNat = 48 ∧ '9'.val.toNat = 57 := by decide
  have ha : 'a'.toNat = 97 ∧ 'a'.val.toNat = 97 ∧ 'f'.val.toNat = 102 := by decide
  have hA : 'A'.toNat = 65 ∧ 'A'.val.toNat = 65 ∧ 'F'.val.toNat = 70 := by decide
  split_ifs at h <;> simp only [Option.some.injEq] at h <;> omega

theorem hexNumber_lt {n m : Nat} (h : hexNumber n l = some m) : m < (n + 1) * 16 ^ l.length := by
  induction l generalizing n with
  | nil =>
    cases h
    simp
  | cons c l ih =>
    rw [hexNumber] at h
    split at h
    · next d hd =>
      have hlt := hexValue_lt hd
      have hmul : (16 * n + d + 1) * 16 ^ l.length ≤ ((n + 1) * 16) * 16 ^ l.length :=
        Nat.mul_le_mul_right _ (by omega)
      rw [List.length_cons, Nat.pow_succ, Nat.mul_comm (16 ^ l.length), ← Nat.mul_assoc]
      exact Nat.lt_of_lt_of_le (ih h) hmul
    · cases h

theorem Hex4.lt {n : Nat} (h : Hex4 l n) : n < 0x10000 := by
  have hlt := hexNumber_lt h.2
  rw [h.1] at hlt
  omega

/-! ## Where values begin and end -/

/-- The characters that can follow a value. -/
def isEnd (c : Char) : Bool := isWs c || c == ',' || c == ']' || c == '}'

/-- What comes next does not continue a value. -/
def Ends (l : List Char) : Prop := ∀ c ∈ l.head?, isEnd c = true

theorem ends_cons (h : isEnd c = true) : Ends (c :: l) := by
  intro d hd
  cases hd
  exact h

theorem Ws.ends {w : List Char} (hw : Ws w) (hl : Ends l) : Ends (w ++ l) := by
  cases w with
  | nil => exact hl
  | cons c w =>
    refine ends_cons ?_
    rw [isEnd, hw c (List.mem_cons_self ..)]
    rfl

theorem isWs_of_not_isEnd (h : isEnd c = false) : isWs c = false := by
  simp only [isEnd, Bool.or_eq_false_iff] at h
  exact h.1.1.1

theorem isEnd_of_isDigit (h : c.isDigit = true) : isEnd c = false := by
  rw [Bool.eq_false_iff]
  intro hend
  simp only [isEnd, isWs, Bool.or_eq_true, beq_iff_eq] at hend
  rcases hend with (((((rfl | rfl) | rfl) | rfl) | rfl) | rfl) | rfl <;> revert h <;> decide

theorem Number.head (h : Number l) : ∃ c t, l = c :: t ∧ (c = '-' ∨ c.isDigit = true) := by
  obtain ⟨minus, int, frac, exp, rfl, rfl | rfl, hint, -, -⟩ := h
  · rcases hint with rfl | ⟨c, ds, rfl, hc, -, -⟩
    · exact ⟨'0', _, rfl, .inr rfl⟩
    · exact ⟨c, _, rfl, .inr hc⟩
  · exact ⟨'-', _, rfl, .inl rfl⟩

theorem Scalar.head (h : Scalar t v) :
    ∃ c t', t = c :: t' ∧ isEnd c = false ∧ c ≠ '[' ∧ c ≠ '{' := by
  cases h with
  | literalNull | literalTrue | literalFalse | string h => exact ⟨_, _, rfl, by decide⟩
  | number h =>
    obtain ⟨c, t, rfl, rfl | hc⟩ := h.head
    · exact ⟨_, _, rfl, by decide⟩
    · refine ⟨_, _, rfl, isEnd_of_isDigit hc, ?_, ?_⟩ <;> rintro rfl <;> exact absurd hc (by decide)

theorem Scalar.denotes (h : Scalar t v) : Denotes d t v := by
  cases d with
  | zero => exact h
  | succ d => exact .inl h

theorem Denotes.head (h : Denotes d t v) : ∃ c t', t = c :: t' ∧ isEnd c = false := by
  have hscalar : Scalar t v → ∃ c t', t = c :: t' ∧ isEnd c = false := by
    intro h
    obtain ⟨c, t', ht, hc, -, -⟩ := h.head
    exact ⟨c, t', ht, hc⟩
  cases d with
  | zero => exact hscalar h
  | succ d =>
    rcases h with h | h
    · exact hscalar h
    · cases h <;> exact ⟨_, _, rfl, by decide⟩

/-! ## Texts without white space -/

theorem ws_nil : Ws [] := by
  intro c h
  cases h

theorem Trailed.compact {a : α} (h : I t a) : Trailed I t a :=
  ⟨t, [], (List.append_nil t).symm, h, ws_nil⟩

theorem Element.compact {E : List Char → Value → Prop} (h : E t v) : Element E t v :=
  ⟨[], t, rfl, ws_nil, h⟩

theorem Member.compact {E : List Char → Value → Prop} {k key : List Char} (hk : Chars k key)
    (h : E t v) : Member E ('"' :: (k ++ '"' :: ':' :: t)) (String.ofList key, v) :=
  ⟨[], k, key, [], t, rfl, ws_nil, hk, ws_nil, rfl, .compact h⟩

/-- Items that are written one after the other, each after a comma but the first. -/
theorem Separated.compact {β : Type} {f : β → List Char} {g : β → α} (h : ∀ b, I (f b) (g b))
    (b : β) (bs : List β) :
    Separated I (f b ++ bs.flatMap fun b => ',' :: f b) ((b :: bs).map g) := by
  induction bs generalizing b with
  | nil =>
    rw [List.flatMap_nil, List.append_nil]
    exact .last (h b)
  | cons b' bs ih =>
    exact .more (h b) (ih b')

theorem Chars.ofPlain (h : ∀ c ∈ l, 0x20 ≤ c.toNat ∧ c ≠ '"' ∧ c ≠ '\\') : Chars l l := by
  induction l with
  | nil => exact .nil
  | cons c l ih =>
    obtain ⟨hc, hquote, hescape⟩ := h c (List.mem_cons_self ..)
    exact .plain hc hquote hescape (ih fun d hd => h d (List.mem_cons_of_mem _ hd))

theorem plain_of_isDigit (h : c.isDigit = true) : 0x20 ≤ c.toNat ∧ c ≠ '"' ∧ c ≠ '\\' := by
  have hrange := Char.isDigit_iff_toNat.1 h
  have h48 : '0'.toNat = 48 := rfl
  refine ⟨by omega, ?_, ?_⟩ <;> rintro rfl <;> exact absurd h (by decide)

end JsonText
