import AgentUplink.Lib.JsonText

/-!
# The grammar of JSON with every escape

The grammar of RFC 8259 lets `\u` be followed by any four hexadecimal digits, so a string
denotes UTF-16 code units that need not form characters. The grammar is stated here over what
the strings of a text are allowed to denote. With the strings that denote characters it derives
the texts of `JsonText`.
-/

open JsonText List

namespace JsonAbnf

/-! ## Code units -/

def utf16 (c : Char) : List Nat :=
  if c.toNat < 0x10000 then [c.toNat]
  else [0xD800 + (c.toNat - 0x10000) / 0x400, 0xDC00 + (c.toNat - 0x10000) % 0x400]

def encode (cs : List Char) : List Nat := cs.flatMap utf16

/-- What stands between the quotation marks of a string, and the code units it denotes. -/
inductive Units : List Char → List Nat → Prop
  | nil : Units [] []
  | plain {c : Char} {t : List Char} {u : List Nat} (hc : 0x20 ≤ c.toNat) (hquote : c ≠ '"')
      (hescape : c ≠ '\\') (h : Units t u) : Units (c :: t) (utf16 c ++ u)
  | short {e c : Char} {t : List Char} {u : List Nat} (he : shortEscape e = some c)
      (h : Units t u) : Units ('\\' :: e :: t) (utf16 c ++ u)
  | unicode {ds t : List Char} {n : Nat} {u : List Nat} (hds : Hex4 ds n) (h : Units t u) :
      Units ('\\' :: 'u' :: (ds ++ t)) (n :: u)

/-- The units a string denotes are those of some characters. -/
def WellFormed (t : List Char) (u : List Nat) : Prop := Units t u ∧ ∃ cs, u = encode cs

theorem valid (c : Char) : c.toNat < 0xD800 ∨ (0xDFFF < c.toNat ∧ c.toNat < 0x110000) := c.valid

theorem encode_cons (c : Char) (cs : List Char) : encode (c :: cs) = utf16 c ++ encode cs := rfl

variable {t cs : List Char} {c : Char} {n d : Nat} {u : List Nat}

theorem utf16_of_lt (h : c.toNat < 0x10000) : utf16 c = [c.toNat] := if_pos h

theorem utf16_of_ge (h : ¬ c.toNat < 0x10000) :
    utf16 c = [0xD800 + (c.toNat - 0x10000) / 0x400, 0xDC00 + (c.toNat - 0x10000) % 0x400] :=
  if_neg h

theorem toNat_ofNat (h : n.isValidChar) : (Char.ofNat n).toNat = n := by
  rw [Char.ofNat, dif_pos h]
  exact UInt32.toNat_ofNatLT ..

theorem utf16_ofNat (hn : n < 0x10000) (hhigh : ¬ IsHighSurrogate n) (hlow : ¬ IsLowSurrogate n) :
    utf16 (Char.ofNat n) = [n] := by
  have htoNat : (Char.ofNat n).toNat = n := by
    refine toNat_ofNat ?_
    unfold IsHighSurrogate at hhigh
    unfold IsLowSurrogate at hlow
    omega
  rw [utf16_of_lt (by rwa [htoNat]), htoNat]

theorem utf16_combined {high low : Nat} (hhigh : IsHighSurrogate high) (hlow : IsLowSurrogate low) :
    utf16 (combined high low) = [high, low] := by
  unfold IsHighSurrogate at hhigh
  unfold IsLowSurrogate at hlow
  have htoNat : (combined high low).toNat = 0x10000 + (high - 0xD800) * 0x400 + (low - 0xDC00) := by
    refine toNat_ofNat ?_
    omega
  have hge : ¬ (combined high low).toNat < 0x10000 := by omega
  have hfst : 0xD800 + ((combined high low).toNat - 0x10000) / 0x400 = high := by omega
  have hsnd : 0xDC00 + ((combined high low).toNat - 0x10000) % 0x400 = low := by omega
  rw [utf16_of_ge hge, hfst, hsnd]

/-- The units of a character end where those of the next one begin. -/
theorem utf16_append_inj {d : Char} {l l' : List Nat} (h : utf16 c ++ l = utf16 d ++ l') :
    c = d ∧ l = l' := by
  have hc := valid c
  have hd := valid d
  by_cases hclt : c.toNat < 0x10000
  · by_cases hdlt : d.toNat < 0x10000
    · rw [utf16_of_lt hclt, utf16_of_lt hdlt] at h
      injection h with hhead htail
      exact ⟨Char.toNat_inj.1 hhead, htail⟩
    · rw [utf16_of_lt hclt, utf16_of_ge hdlt] at h
      injection h with hhead htail
      omega
  · by_cases hdlt : d.toNat < 0x10000
    · rw [utf16_of_ge hclt, utf16_of_lt hdlt] at h
      injection h with hhead htail
      omega
    · rw [utf16_of_ge hclt, utf16_of_ge hdlt] at h
      injection h with hfst htail
      injection htail with hsnd htail
      have htoNat : c.toNat = d.toNat := by omega
      exact ⟨Char.toNat_inj.1 htoNat, htail⟩

theorem utf16_ne_nil (c : Char) : utf16 c ≠ [] := by
  unfold utf16
  split_ifs <;> exact cons_ne_nil _ _

theorem encode_injective : Function.Injective encode := by
  intro cs
  induction cs with
  | nil =>
    intro ds h
    cases ds with
    | nil => rfl
    | cons d ds => exact absurd (append_eq_nil_iff.1 h.symm).1 (utf16_ne_nil d)
  | cons c cs ih =>
    intro ds h
    cases ds with
    | nil => exact absurd (append_eq_nil_iff.1 h).1 (utf16_ne_nil c)
    | cons d ds =>
      obtain ⟨rfl, htail⟩ := utf16_append_inj h
      rw [ih htail]

/-! ## Strings -/

theorem units_of_chars (h : Chars t cs) : Units t (encode cs) := by
  induction h with
  | nil => exact .nil
  | plain hc hquote hescape h ih => exact .plain hc hquote hescape ih
  | @escape e t cs c he h ih =>
    rw [encode_cons]
    cases he with
    | short he => exact .short he ih
    | @unicode ds n hds hhigh hlow =>
      rw [utf16_ofNat hds.lt hhigh hlow]
      exact .unicode hds ih
    | @pair ds ds' high low hds hds' hhigh hlow =>
      rw [utf16_combined hhigh hlow, cons_append, append_assoc]
      exact .unicode hds (.unicode hds' ih)

/-- The second unit of a pair can only be written with an escape of its own. -/
theorem Units.low_surrogate (h : Units t (n :: u)) (hlow : IsLowSurrogate n) :
    ∃ ds t', t = '\\' :: 'u' :: (ds ++ t') ∧ Hex4 ds n ∧ Units t' u := by
  unfold IsLowSurrogate at hlow
  -- no character has a low surrogate as its first unit
  have hfirst : ∀ (c : Char) (l : List Nat), utf16 c ++ l ≠ n :: u := by
    intro c l heq
    have hc := valid c
    by_cases hlt : c.toNat < 0x10000
    · rw [utf16_of_lt hlt] at heq
      injection heq with hhead
      omega
    · rw [utf16_of_ge hlt] at heq
      injection heq with hhead
      omega
  generalize hl : n :: u = l at h
  cases h with
  | nil => cases hl
  | plain hc hquote hescape h | short he h => exact absurd hl.symm (hfirst _ _)
  | @unicode ds t' m u' hds h =>
    cases hl
    exact ⟨ds, t', rfl, hds, h⟩

theorem chars_of_units (h : Units t (encode cs)) : Chars t cs := by
  generalize hlen : t.length = len
  induction len using Nat.strongRecOn generalizing t cs with
  | ind len ih =>
    subst hlen
    generalize hu : encode cs = u at h
    cases cs with
    | nil =>
      cases h with
      | nil => exact .nil
      | plain hc hquote hescape h =>
        exact absurd (append_eq_nil_iff.1 hu.symm).1 (utf16_ne_nil _)
      | short he h => exact absurd (append_eq_nil_iff.1 hu.symm).1 (utf16_ne_nil _)
      | unicode hds h => cases hu
    | cons c cs =>
      rw [encode_cons] at hu
      cases h with
      | nil => exact absurd (append_eq_nil_iff.1 hu).1 (utf16_ne_nil c)
      | plain hc hquote hescape h =>
        obtain ⟨rfl, rfl⟩ := utf16_append_inj hu
        exact .plain hc hquote hescape (ih _ (Nat.lt_succ_self _) h rfl)
      | @short e d t u he h =>
        obtain ⟨rfl, rfl⟩ := utf16_append_inj hu
        refine .escape (.short he) (ih _ ?_ h rfl)
        simp only [length_cons]
        omega
      | @unicode ds t n u hds h =>
        have hc := valid c
        by_cases hlt : c.toNat < 0x10000
        · rw [utf16_of_lt hlt] at hu
          injection hu with hn hu
          subst hn hu
          have hchars := ih t.length (by simp only [length_cons, length_append]; omega)
            h rfl
          have hescape : Escape ('u' :: ds) (Char.ofNat c.toNat) := by
            refine .unicode hds ?_ ?_
            · unfold IsHighSurrogate
              omega
            · unfold IsLowSurrogate
              omega
          rw [Char.ofNat_toNat] at hescape
          exact .escape hescape hchars
        · rw [utf16_of_ge hlt] at hu
          injection hu with hhigh hu
          subst hu
          have hlow : IsLowSurrogate (0xDC00 + (c.toNat - 0x10000) % 0x400) := by
            unfold IsLowSurrogate
            omega
          have hhigh' : IsHighSurrogate n := by
            unfold IsHighSurrogate
            omega
          obtain ⟨ds', t', rfl, hds', h⟩ := h.low_surrogate hlow
          have hchars := ih t'.length (by simp only [length_cons, length_append]; omega)
            h rfl
          have hpair := Escape.pair hds hds' hhigh' hlow
          have hcombined : combined n (0xDC00 + (c.toNat - 0x10000) % 0x400) = c := by
            have hvalue : 0x10000 + (n - 0xD800) * 0x400
                + (0xDC00 + (c.toNat - 0x10000) % 0x400 - 0xDC00) = c.toNat := by omega
            rw [combined, hvalue, Char.ofNat_toNat]
          rw [hcombined] at hpair
          simpa using Chars.escape hpair hchars

theorem wellFormed_iff : WellFormed t u ↔ ∃ cs, Chars t cs ∧ u = encode cs := by
  constructor
  · rintro ⟨h, cs, rfl⟩
    exact ⟨cs, chars_of_units h, rfl⟩
  · rintro ⟨cs, h, rfl⟩
    exact ⟨units_of_chars h, cs, rfl⟩

/-! ## Values -/

section Grammar

-- the strings of the grammar and what they denote
variable (S : List Char → List Nat → Prop)

inductive Scalar : List Char → Prop
  | literalNull : Scalar ['n', 'u', 'l', 'l']
  | literalTrue : Scalar ['t', 'r', 'u', 'e']
  | literalFalse : Scalar ['f', 'a', 'l', 's', 'e']
  | number {l : List Char} (h : Number l) : Scalar l
  | string {t : List Char} {u : List Nat} (h : S t u) : Scalar ('"' :: (t ++ ['"']))

section

variable (E : List Char → Prop)

def Element (l : List Char) (_ : Unit) : Prop := ∃ w t, l = w ++ t ∧ Ws w ∧ E t

/-- One member of an object, with its name. -/
def Member (l : List Char) (name : List Nat) : Prop :=
  ∃ w k w' t, l = w ++ '"' :: (k ++ '"' :: (w' ++ ':' :: t)) ∧ Ws w ∧ S k name ∧ Ws w' ∧
    Element E t ()

inductive Array : List Char → Prop
  | empty {w : List Char} (hw : Ws w) : Array ('[' :: (w ++ [']']))
  | items {t : List Char} {as : List Unit} (h : Separated (Trailed (Element E)) t as) :
      Array ('[' :: (t ++ [']']))

/-- No two members of an object have the same name. -/
inductive Object : List Char → Prop
  | empty {w : List Char} (hw : Ws w) : Object ('{' :: (w ++ ['}']))
  | members {t : List Char} {names : List (List Nat)}
      (h : Separated (Trailed (Member S E)) t names) (hnames : names.Nodup) :
      Object ('{' :: (t ++ ['}']))

end

/-- The values that nest at most `d` deep. -/
def Nests : Nat → List Char → Prop
  | 0, t => Scalar S t
  | d + 1, t => Scalar S t ∨ Array (Nests d) t ∨ Object S (Nests d) t

/-- A whole text: an object that nests at most `d` deep, with white space around it. -/
def ObjectText : Nat → List Char → Prop
  | 0, _ => False
  | d + 1, l => ∃ w t w', l = w ++ (t ++ w') ∧ Ws w ∧ Object S (Nests S d) t ∧ Ws w'

end Grammar

/-! ## The two grammars -/

section

variable {α β : Type} {I : List Char → α → Prop} {J : List Char → β → Prop} {g : β → α}

theorem trailed_iff (h : ∀ t a, I t a ↔ ∃ b, J t b ∧ g b = a) (t : List Char) (a : α) :
    Trailed I t a ↔ ∃ b, Trailed J t b ∧ g b = a := by
  constructor
  · rintro ⟨t, w, rfl, ht, hw⟩
    obtain ⟨b, hb, rfl⟩ := (h t a).1 ht
    exact ⟨b, ⟨t, w, rfl, hb, hw⟩, rfl⟩
  · rintro ⟨b, ⟨t, w, rfl, hb, hw⟩, rfl⟩
    exact ⟨t, w, rfl, (h t _).2 ⟨b, hb, rfl⟩, hw⟩

theorem separated_iff (h : ∀ t a, I t a ↔ ∃ b, J t b ∧ g b = a) {t : List Char} {as : List α} :
    Separated I t as ↔ ∃ bs, Separated J t bs ∧ bs.map g = as := by
  constructor
  · intro hs
    induction hs with
    | last ht =>
      obtain ⟨b, hb, rfl⟩ := (h _ _).1 ht
      exact ⟨[b], .last hb, rfl⟩
    | more ht hrest ih =>
      obtain ⟨b, hb, rfl⟩ := (h _ _).1 ht
      obtain ⟨bs, hbs, rfl⟩ := ih
      exact ⟨b :: bs, .more hb hbs, rfl⟩
  · rintro ⟨bs, hs, rfl⟩
    induction hs with
    | last hb => exact .last ((h _ _).2 ⟨_, hb, rfl⟩)
    | more hb hrest ih => exact .more ((h _ _).2 ⟨_, hb, rfl⟩) ih

end

theorem scalar_iff : Scalar WellFormed t ↔ ∃ v, JsonText.Scalar t v := by
  constructor
  · intro h
    cases h with
    | literalNull => exact ⟨_, .literalNull⟩
    | literalTrue => exact ⟨_, .literalTrue⟩
    | literalFalse => exact ⟨_, .literalFalse⟩
    | number h => exact ⟨_, .number h⟩
    | string h =>
      obtain ⟨cs, hcs, -⟩ := wellFormed_iff.1 h
      exact ⟨_, .string hcs⟩
  · rintro ⟨v, h⟩
    cases h with
    | literalNull => exact .literalNull
    | literalTrue => exact .literalTrue
    | literalFalse => exact .literalFalse
    | number h => exact .number h
    | string h => exact .string (wellFormed_iff.2 ⟨_, h, rfl⟩)

section

variable {E : List Char → Prop} {F : List Char → Value → Prop}

section

variable (hE : ∀ t, E t ↔ ∃ v, F t v)
include hE

theorem element_iff (t : List Char) (a : Unit) :
    Element E t a ↔ ∃ v, JsonText.Element F t v ∧ () = a := by
  constructor
  · rintro ⟨w, t, rfl, hw, ht⟩
    obtain ⟨v, hv⟩ := (hE t).1 ht
    exact ⟨v, ⟨w, t, rfl, hw, hv⟩, rfl⟩
  · rintro ⟨v, ⟨w, t, rfl, hw, hv⟩, -⟩
    exact ⟨w, t, rfl, hw, (hE t).2 ⟨v, hv⟩⟩

theorem member_iff (t : List Char) (name : List Nat) :
    Member WellFormed E t name ↔ ∃ m, JsonText.Member F t m ∧ encode m.1.toList = name := by
  constructor
  · rintro ⟨w, k, w', t, rfl, hw, hk, hw', ht⟩
    obtain ⟨cs, hcs, rfl⟩ := wellFormed_iff.1 hk
    obtain ⟨v, hv, -⟩ := (element_iff hE t ()).1 ht
    refine ⟨(String.ofList cs, v), ⟨w, k, cs, w', t, rfl, hw, hcs, hw', rfl, hv⟩, ?_⟩
    rw [String.toList_ofList]
  · rintro ⟨⟨key, v⟩, ⟨w, k, cs, w', t, rfl, hw, hk, hw', hkey, hv⟩, rfl⟩
    refine ⟨w, k, w', t, rfl, hw, wellFormed_iff.2 ⟨cs, hk, ?_⟩, hw',
      (element_iff hE t ()).2 ⟨v, hv, rfl⟩⟩
    rw [hkey, String.toList_ofList]

theorem array_iff {t : List Char} : Array E t ↔ ∃ vs, Compound F t (.array vs) := by
  have hitems : ∀ {t as}, Separated (Trailed (Element E)) t as ↔
      ∃ vs, Separated (Trailed (JsonText.Element F)) t vs ∧ vs.map (fun _ => ()) = as :=
    separated_iff (trailed_iff (element_iff hE))
  constructor
  · intro h
    cases h with
    | empty hw => exact ⟨[], .emptyArray hw⟩
    | items h =>
      obtain ⟨vs, hvs, -⟩ := hitems.1 h
      exact ⟨vs, .array hvs⟩
  · rintro ⟨vs, h⟩
    cases h with
    | emptyArray hw => exact .empty hw
    | array h => exact .items (hitems.2 ⟨vs, h, rfl⟩)

end

theorem nodup_names {ms : List (String × Value)} :
    (ms.map fun m => encode m.1.toList).Nodup ↔ (ms.map Prod.fst).Nodup := by
  have hinj : Function.Injective fun key : String => encode key.toList := by
    intro a b h
    exact String.toList_inj.1 (encode_injective h)
  have hmap : (ms.map fun m => encode m.1.toList)
      = (ms.map Prod.fst).map fun key => encode key.toList := by
    rw [map_map]
    rfl
  rw [hmap, nodup_map_iff hinj]

theorem object_iff (hE : ∀ t, E t ↔ ∃ v, F t v) {t : List Char} :
    Object WellFormed E t ↔ ∃ ms, Compound F t (.object ms) := by
  have hitems : ∀ {t names}, Separated (Trailed (Member WellFormed E)) t names ↔
      ∃ ms, Separated (Trailed (JsonText.Member F)) t ms ∧
        ms.map (fun m => encode m.1.toList) = names :=
    separated_iff (trailed_iff (member_iff hE))
  constructor
  · intro h
    cases h with
    | empty hw => exact ⟨[], .emptyObject hw⟩
    | members h hnames =>
      obtain ⟨ms, hms, rfl⟩ := hitems.1 h
      exact ⟨ms, .object hms (nodup_names.1 hnames)⟩
  · rintro ⟨ms, h⟩
    cases h with
    | emptyObject hw => exact .empty hw
    | object h hkeys => exact .members (hitems.2 ⟨ms, h, rfl⟩) (nodup_names.2 hkeys)

end

theorem nests_iff (t : List Char) : Nests WellFormed d t ↔ ∃ v, Denotes d t v := by
  induction d generalizing t with
  | zero => exact scalar_iff
  | succ d ih =>
    constructor
    · rintro (h | h | h)
      · obtain ⟨v, hv⟩ := scalar_iff.1 h
        exact ⟨v, .inl hv⟩
      · obtain ⟨vs, hvs⟩ := (array_iff ih).1 h
        exact ⟨_, .inr hvs⟩
      · obtain ⟨ms, hms⟩ := (object_iff ih).1 h
        exact ⟨_, .inr hms⟩
    · rintro ⟨v, h | h⟩
      · exact .inl (scalar_iff.2 ⟨v, h⟩)
      · cases v with
        | array vs => exact .inr (.inl ((array_iff ih).2 ⟨vs, h⟩))
        | object ms => exact .inr (.inr ((object_iff ih).2 ⟨ms, h⟩))
        | _ => cases h

/-- With the strings that denote characters, the grammar derives the texts that have a value. -/
theorem objectText_iff {l : List Char} :
    ObjectText WellFormed d l ↔ ∃ ms, Text d l (.object ms) := by
  cases d with
  | zero =>
    refine ⟨False.elim, ?_⟩
    rintro ⟨ms, t, w, rfl, ⟨w', u, rfl, hw', hu⟩, hw⟩
    cases hu
  | succ d =>
    constructor
    · rintro ⟨w, t, w', rfl, hw, ht, hw'⟩
      obtain ⟨ms, hms⟩ := (object_iff nests_iff).1 ht
      exact ⟨ms, w ++ t, w', (append_assoc ..).symm, ⟨w, t, rfl, hw, .inr hms⟩, hw'⟩
    · rintro ⟨ms, t, w', rfl, ⟨w, u, rfl, hw, hu⟩, hw'⟩
      rcases hu with hu | hu
      · cases hu
      · exact ⟨w, u, w', append_assoc .., hw, (object_iff nests_iff).2 ⟨ms, hu⟩, hw'⟩

end JsonAbnf
