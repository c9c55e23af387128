import AgentUplink.Lib.JsonText

/-!
# JSON texts without white space

`compact` drops the white space of a text that stands outside its strings. It follows the
quotation marks and the backslashes and knows nothing else of the grammar. Of a text of the
grammar it keeps what the text denotes.
-/

namespace JsonText

open List

/-- Where a character of a text stands. -/
inductive Place
  | outside
  | string
  /-- Right behind a backslash. -/
  | escape
  deriving DecidableEq

/-- The place of the next character. -/
def Place.after : Place → Char → Place
  | .outside, c => if c = '"' then .string else .outside
  | .string, c => if c = '"' then .outside else if c = '\\' then .escape else .string
  | .escape, _ => .string

def Place.afterAll (p : Place) (l : List Char) : Place := l.foldl Place.after p

def Place.keeps (p : Place) (c : Char) : Bool := p != .outside || !isWs c

def Place.compact : Place → List Char → List Char
  | _, [] => []
  | p, c :: l => if p.keeps c then c :: (p.after c).compact l else (p.after c).compact l

def compact (l : List Char) : List Char := Place.outside.compact l

namespace Place

theorem afterAll_append (p : Place) (l l' : List Char) :
    p.afterAll (l ++ l') = (p.afterAll l).afterAll l' := foldl_append

theorem compact_append (p : Place) (l l' : List Char) :
    p.compact (l ++ l') = p.compact l ++ (p.afterAll l).compact l' := by
  induction l generalizing p with
  | nil => rfl
  | cons c l ih =>
    rw [cons_append, compact, compact, ih]
    by_cases hkeeps : p.keeps c = true
    · rw [if_pos hkeeps, if_pos hkeeps]
      rfl
    · rw [if_neg hkeeps, if_neg hkeeps]
      rfl

theorem after_of_not_keeps {p : Place} {c : Char} (h : p.keeps c = false) : p.after c = p := by
  simp only [keeps, Bool.or_eq_false_iff, bne_eq_false_iff_eq, Bool.not_eq_false'] at h
  obtain ⟨rfl, hws⟩ := h
  have hc : c ≠ '"' := by
    intro hquote
    rw [hquote] at hws
    cases hws
  simp [after, hc]

theorem compact_compact (p : Place) (l : List Char) : p.compact (p.compact l) = p.compact l := by
  induction l generalizing p with
  | nil => rfl
  | cons c l ih =>
    by_cases hkeeps : p.keeps c = true
    · rw [compact, if_pos hkeeps, compact, if_pos hkeeps, ih]
    · rw [compact, if_neg hkeeps, after_of_not_keeps (Bool.eq_false_iff.2 hkeeps), ih]

end Place

/-! ## Pieces of a text -/

/-- Some characters that end outside the strings and lose nothing. -/
def Tight (l : List Char) : Prop :=
  Place.outside.afterAll l = .outside ∧ compact l = l

variable {l l' t : List Char} {c : Char} {d : Nat} {v : Value}

theorem compact_append_of_closed (h : Place.outside.afterAll l = .outside) (l' : List Char) :
    compact (l ++ l') = compact l ++ compact l' := by
  rw [compact, Place.compact_append, h]
  rfl

theorem Tight.append (h : Tight l) (h' : Tight l') : Tight (l ++ l') := by
  refine ⟨?_, ?_⟩
  · rw [Place.afterAll_append, h.1, h'.1]
  · rw [compact_append_of_closed h.1, h.2, h'.2]

theorem tight_singleton (hquote : c ≠ '"') (hws : isWs c = false) : Tight [c] := by
  simp [Tight, compact, Place.afterAll, Place.after, Place.compact, Place.keeps, hquote, hws]

theorem Tight.cons (hquote : c ≠ '"') (hws : isWs c = false) (h : Tight l) : Tight (c :: l) :=
  (tight_singleton hquote hws).append h

theorem tight_of_forall (h : ∀ c ∈ l, c ≠ '"' ∧ isWs c = false) : Tight l := by
  induction l with
  | nil => exact ⟨rfl, rfl⟩
  | cons c l ih =>
    obtain ⟨hquote, hws⟩ := h c (mem_cons_self ..)
    exact .cons hquote hws (ih fun d hd => h d (mem_cons_of_mem _ hd))

/-- A word without quotes and whitespace, by evaluation: the JSON literals are such words. -/
theorem tight_of_all (h : l.all (fun c => c != '"' && !isWs c) = true) : Tight l := by
  refine tight_of_forall fun c hc => ?_
  have hplain := List.all_eq_true.1 h c hc
  simpa only [Bool.and_eq_true, bne_iff_ne, Bool.not_eq_true'] using hplain

variable {w e s : List Char} {n : Nat}

theorem Ws.afterAll (h : Ws w) : Place.outside.afterAll w = .outside := by
  induction w with
  | nil => rfl
  | cons c w ih =>
    have hc : Place.outside.after c = .outside := by
      refine Place.after_of_not_keeps ?_
      simp [Place.keeps, h c (List.mem_cons_self ..)]
    show (Place.outside.after c).afterAll w = .outside
    rw [hc, ih fun d hd => h d (List.mem_cons_of_mem _ hd)]

theorem compact_of_ws (h : Ws w) : compact w = [] := by
  induction w with
  | nil => rfl
  | cons c w ih =>
    have hkeeps : Place.outside.keeps c = false := by
      simp [Place.keeps, h c (List.mem_cons_self ..)]
    rw [compact, Place.compact, hkeeps, if_neg (by decide), Place.after_of_not_keeps hkeeps]
    exact ih fun d hd => h d (List.mem_cons_of_mem _ hd)

/-! ## Strings -/

/-- Some characters of a string that leave it open and lose nothing. -/
def Inner (l : List Char) : Prop :=
  Place.string.afterAll l = .string ∧ Place.string.compact l = l

theorem inner_nil : Inner [] := ⟨rfl, rfl⟩

theorem Inner.append (h : Inner l) (h' : Inner l') : Inner (l ++ l') := by
  refine ⟨?_, ?_⟩
  · rw [Place.afterAll_append, h.1, h'.1]
  · rw [Place.compact_append, h.1, h.2, h'.2]

theorem inner_singleton (hquote : c ≠ '"') (hescape : c ≠ '\\') : Inner [c] := by
  simp [Inner, Place.afterAll, Place.after, Place.compact, Place.keeps, hquote, hescape]

theorem inner_of_forall (h : ∀ c ∈ l, c ≠ '"' ∧ c ≠ '\\') : Inner l := by
  induction l with
  | nil => exact inner_nil
  | cons c l ih =>
    obtain ⟨hquote, hescape⟩ := h c (List.mem_cons_self ..)
    exact (inner_singleton hquote hescape).append (ih fun d hd => h d (List.mem_cons_of_mem _ hd))

theorem inner_escape (e : Char) : Inner ['\\', e] := by
  simp [Inner, Place.afterAll, Place.after, Place.compact, Place.keeps]

theorem hexValue_quote (h : hexValue c = some d) : c ≠ '"' ∧ c ≠ '\\' ∧ 0x20 ≤ c.toNat := by
  have hval : c.val.toNat = c.toNat := rfl
  have h0 : '0'.val.toNat = 48 ∧ 'a'.val.toNat = 97 ∧ 'A'.val.toNat = 65 := by decide
  unfold hexValue at h
  refine ⟨?_, ?_, ?_⟩
  · rintro rfl
    cases h
  · rintro rfl
    cases h
  · simp only [Char.le_def, UInt32.le_iff_toNat_le] at h
    split_ifs at h <;> omega

theorem hexNumber_quote {m : Nat} (h : hexNumber n l = some m) :
    ∀ c ∈ l, c ≠ '"' ∧ c ≠ '\\' ∧ 0x20 ≤ c.toNat := by
  induction l generalizing n with
  | nil => nofun
  | cons c l ih =>
    rw [hexNumber] at h
    split at h
    · next d hd =>
      exact List.forall_mem_cons.2 ⟨hexValue_quote hd, ih h⟩
    · cases h

theorem Hex4.inner (h : Hex4 l n) : Inner l :=
  inner_of_forall fun c hc => ⟨(hexNumber_quote h.2 c hc).1, (hexNumber_quote h.2 c hc).2.1⟩

theorem Escape.inner (h : Escape e c) : Inner ('\\' :: e) := by
  cases h with
  | short he => exact inner_escape _
  | unicode hds hhigh hlow => exact (inner_escape 'u').append hds.inner
  | pair hds hds' hhigh hlow =>
    exact (inner_escape 'u').append (hds.inner.append ((inner_escape 'u').append hds'.inner))

theorem Chars.inner (h : Chars t s) : Inner t := by
  induction h with
  | nil => exact inner_nil
  | plain hc hquote hescape h ih => exact (inner_singleton hquote hescape).append ih
  | escape he h ih => exact he.inner.append ih

theorem Inner.tight (h : Inner t) : Tight ('"' :: (t ++ ['"'])) := by
  have hafter : Place.string.afterAll (t ++ ['"']) = .outside := by
    rw [Place.afterAll_append, h.1]
    rfl
  have hcompact : Place.string.compact (t ++ ['"']) = t ++ ['"'] := by
    rw [Place.compact_append, h.1, h.2]
    rfl
  refine ⟨hafter, ?_⟩
  show '"' :: Place.string.compact (t ++ ['"']) = _
  rw [hcompact]

/-! ## Lines -/

def OneLine (l : List Char) : Prop := ∀ c ∈ l, c ≠ '\n' ∧ c ≠ '\r'

theorem OneLine.append (h : OneLine l) (h' : OneLine l') : OneLine (l ++ l') :=
  forall_mem_append.2 ⟨h, h'⟩

theorem OneLine.cons (hc : c ≠ '\n' ∧ c ≠ '\r') (h : OneLine l) : OneLine (c :: l) :=
  forall_mem_cons.2 ⟨hc, h⟩

theorem oneLine_of_all (h : l.all (fun c => c != '\n' && c != '\r') = true) : OneLine l := by
  intro c hc
  have hplain := all_eq_true.1 h c hc
  simpa only [Bool.and_eq_true, bne_iff_ne] using hplain

theorem Escape.oneLine (h : Escape e c) : OneLine e := by
  have hhex {ds : List Char} {n : Nat} (hds : Hex4 ds n) : OneLine ds := by
    intro c hc
    have hle := (hexNumber_quote hds.2 c hc).2.2
    refine ⟨?_, ?_⟩ <;> rintro rfl <;> exact absurd hle (by decide)
  cases h with
  | @short e c he =>
    refine .cons ⟨?_, ?_⟩ nofun <;> rintro rfl <;> cases he
  | unicode hds hhigh hlow => exact .cons (by decide) (hhex hds)
  | pair hds hds' hhigh hlow =>
    exact .cons (by decide) ((hhex hds).append (.cons (by decide) (.cons (by decide) (hhex hds'))))

theorem Chars.oneLine (h : Chars t s) : OneLine t := by
  induction h with
  | nil => nofun
  | @plain c t s hc hquote hescape h ih =>
    refine .cons ⟨?_, ?_⟩ ih <;> rintro rfl <;> exact absurd hc (by decide)
  | escape he h ih => exact .cons (by decide) (he.oneLine.append ih)

/-! ## What a compact text denotes -/

/-- The text ends outside its strings, and its compact form is one line with the same meaning. -/
structure Compacts {α : Type} (I : List Char → α → Prop) (t : List Char) (a : α) : Prop where
  closed : Place.outside.afterAll t = .outside
  denotes : I (compact t) a
  oneLine : OneLine (compact t)

theorem compact_cons (hquote : c ≠ '"') (hws : isWs c = false) (l : List Char) :
    compact (c :: l) = c :: compact l := by
  have htight := tight_singleton hquote hws
  have happend := compact_append_of_closed htight.1 l
  rwa [htight.2] at happend

theorem afterAll_cons (hquote : c ≠ '"') (hws : isWs c = false) (l : List Char) :
    Place.outside.afterAll (c :: l) = Place.outside.afterAll l := by
  have happend := Place.afterAll_append .outside [c] l
  rwa [(tight_singleton hquote hws).1] at happend

theorem Compacts.of_tight {α : Type} {I : List Char → α → Prop} {a : α} (htight : Tight t)
    (hline : OneLine t) (h : I t a) : Compacts I t a where
  closed := htight.1
  denotes := by
    rw [htight.2]
    exact h
  oneLine := by
    rw [htight.2]
    exact hline

theorem Number.chars (h : Number l) :
    ∀ c ∈ l, c.isDigit = true ∨ c ∈ ['-', '+', '.', 'e', 'E'] := by
  obtain ⟨minus, int, frac, exp, rfl, hminus, hint, hfrac, hexp⟩ := h
  have hint' : ∀ c ∈ int, c.isDigit = true := by
    rcases hint with rfl | ⟨c, ds, rfl, hc, -, hds⟩
    · exact forall_mem_singleton.2 rfl
    · exact forall_mem_cons.2 ⟨hc, hds⟩
  have hfrac' : ∀ c ∈ frac, c.isDigit = true ∨ c = '.' := by
    rcases hfrac with rfl | ⟨ds, rfl, -, hds⟩
    · nofun
    · exact forall_mem_cons.2 ⟨.inr rfl, fun d hd => .inl (hds d hd)⟩
  have hexp' : ∀ c ∈ exp, c.isDigit = true ∨ c ∈ ['-', '+', 'e', 'E'] := by
    rcases hexp with rfl | ⟨e, sign, ds, rfl, he, hsign, -, hds⟩
    · nofun
    · refine forall_mem_cons.2 ⟨?_, forall_mem_append.2 ⟨?_, fun d hd => .inl (hds d hd)⟩⟩
      · rcases he with rfl | rfl <;> exact .inr (by decide)
      · rcases hsign with rfl | rfl | rfl
        · nofun
        · exact forall_mem_singleton.2 (.inr (by decide))
        · exact forall_mem_singleton.2 (.inr (by decide))
  intro c hc
  simp only [mem_append] at hc
  rcases hc with hc | hc | hc | hc
  · rcases hminus with rfl | rfl
    · cases hc
    · rw [mem_singleton.1 hc]
      exact .inr (by decide)
  · exact .inl (hint' c hc)
  · rcases hfrac' c hc with h | rfl
    · exact .inl h
    · exact .inr (by decide)
  · rcases hexp' c hc with h | h
    · exact .inl h
    · refine .inr ?_
      simp only [mem_cons, not_mem_nil, or_false] at h ⊢
      tauto

theorem Number.plain (h : Number l) : ∀ c ∈ l, c ≠ '"' ∧ isWs c = false ∧ c ≠ '\n' ∧ c ≠ '\r' := by
  intro c hc
  rcases h.chars c hc with hdigit | hother
  · have hws := isWs_of_not_isEnd (isEnd_of_isDigit hdigit)
    refine ⟨?_, hws, ?_, ?_⟩ <;> rintro rfl <;> exact absurd hdigit (by decide)
  · simp only [List.mem_cons, List.not_mem_nil, or_false] at hother
    rcases hother with rfl | rfl | rfl | rfl | rfl <;> decide

theorem Scalar.compacts (h : Scalar t v) : Compacts Scalar t v := by
  have hscalar := h
  cases h with
  | literalNull | literalTrue | literalFalse =>
    exact .of_tight (tight_of_all rfl) (oneLine_of_all rfl) hscalar
  | number h =>
    have hplain := h.plain
    exact .of_tight (tight_of_forall fun c hc => ⟨(hplain c hc).1, (hplain c hc).2.1⟩)
      (fun c hc => (hplain c hc).2.2) hscalar
  | string h =>
    refine .of_tight h.inner.tight ?_ hscalar
    exact .cons (by decide) (h.oneLine.append (.cons (by decide) nofun))

section

variable {α : Type} {I : List Char → α → Prop}

theorem Trailed.compacts (hI : ∀ t a, I t a → Compacts I t a) {t : List Char} {a : α}
    (h : Trailed I t a) : Compacts (Trailed I) t a := by
  obtain ⟨t, w, rfl, ht, hw⟩ := h
  have hc := hI _ _ ht
  have htext : JsonText.compact (t ++ w) = JsonText.compact t := by
    rw [compact_append_of_closed hc.closed, compact_of_ws hw, List.append_nil]
  refine ⟨?_, ?_, ?_⟩
  · rw [Place.afterAll_append, hc.closed, hw.afterAll]
  · rw [htext]
    exact Trailed.compact hc.denotes
  · rw [htext]
    exact hc.oneLine

theorem Separated.compacts (hI : ∀ t a, I t a → Compacts I t a) {t : List Char} {as : List α}
    (h : Separated I t as) : Compacts (Separated I) t as := by
  induction h with
  | last h =>
    have hc := hI _ _ h
    exact ⟨hc.closed, .last hc.denotes, hc.oneLine⟩
  | @more t rest a as h hrest ih =>
    have hc := hI _ _ h
    have htext : JsonText.compact (t ++ ',' :: rest)
        = JsonText.compact t ++ ',' :: JsonText.compact rest := by
      rw [compact_append_of_closed hc.closed, compact_cons (by decide) rfl]
    refine ⟨?_, ?_, ?_⟩
    · rw [Place.afterAll_append, hc.closed, afterAll_cons (by decide) rfl, ih.closed]
    · rw [htext]
      exact .more hc.denotes ih.denotes
    · rw [htext]
      exact hc.oneLine.append (.cons (by decide) ih.oneLine)

end

section

variable {E : List Char → Value → Prop}

variable {t : List Char} {v : Value}

theorem Element.compacts (hE : ∀ t v, E t v → Compacts E t v) (h : Element E t v) :
    Compacts (Element E) t v := by
  obtain ⟨w, t, rfl, hw, ht⟩ := h
  have hc := hE _ _ ht
  have htext : JsonText.compact (w ++ t) = JsonText.compact t := by
    rw [compact_append_of_closed hw.afterAll, compact_of_ws hw, List.nil_append]
  refine ⟨?_, ?_, ?_⟩
  · rw [Place.afterAll_append, hw.afterAll, hc.closed]
  · rw [htext]
    exact Element.compact hc.denotes
  · rw [htext]
    exact hc.oneLine

theorem Member.compacts (hE : ∀ t v, E t v → Compacts E t v) {m : String × Value}
    (h : Member E t m) : Compacts (Member E) t m := by
  obtain ⟨w, k, key, w', t, rfl, hw, hk, hw', hm, helement⟩ := h
  have hc := Element.compacts hE helement
  have hkey := hk.inner.tight
  have hsplit : w ++ '"' :: (k ++ '"' :: (w' ++ ':' :: t))
      = w ++ (('"' :: (k ++ ['"'])) ++ (w' ++ ':' :: t)) := by simp
  have htext : JsonText.compact (w ++ '"' :: (k ++ '"' :: (w' ++ ':' :: t)))
      = '"' :: (k ++ '"' :: ':' :: JsonText.compact t) := by
    rw [hsplit, compact_append_of_closed hw.afterAll, compact_append_of_closed hkey.1,
      compact_append_of_closed hw'.afterAll, @compact_cons ':' (by decide) rfl, compact_of_ws hw,
      hkey.2, compact_of_ws hw']
    simp
  refine ⟨?_, ?_, ?_⟩
  · rw [hsplit, Place.afterAll_append, hw.afterAll, Place.afterAll_append, hkey.1,
      Place.afterAll_append, hw'.afterAll, @afterAll_cons ':' (by decide) rfl, hc.closed]
  · rw [htext]
    exact ⟨[], k, key, [], _, rfl, ws_nil, hk, ws_nil, hm, hc.denotes⟩
  · rw [htext]
    exact .cons (by decide) (hk.oneLine.append (.cons (by decide) (.cons (by decide) hc.oneLine)))

theorem compact_bracketed {open' close : Char} (hopen : open' ≠ '"' ∧ isWs open' = false)
    (hclose : close ≠ '"' ∧ isWs close = false) (hclosed : Place.outside.afterAll t = .outside) :
    compact (open' :: (t ++ [close])) = open' :: (compact t ++ [close]) ∧
      Place.outside.afterAll (open' :: (t ++ [close])) = .outside := by
  have hlast := tight_singleton hclose.1 hclose.2
  refine ⟨?_, ?_⟩
  · rw [compact_cons hopen.1 hopen.2, compact_append_of_closed hclosed]
    exact congrArg (fun l => open' :: (JsonText.compact t ++ l)) hlast.2
  · rw [afterAll_cons hopen.1 hopen.2, Place.afterAll_append, hclosed, hlast.1]

theorem Compound.compacts (hE : ∀ t v, E t v → Compacts E t v) (h : Compound E t v) :
    Compacts (Compound E) t v := by
  have hline : ∀ {c d : Char} {l : List Char}, c ≠ '\n' ∧ c ≠ '\r' → d ≠ '\n' ∧ d ≠ '\r' →
      OneLine l → OneLine (c :: (l ++ [d])) :=
    fun hc hd hl => .cons hc (hl.append (.cons hd nofun))
  cases h with
  | emptyArray hw =>
    obtain ⟨htext, hclosed⟩ := @compact_bracketed _ '[' ']' (by decide) (by decide) hw.afterAll
    rw [compact_of_ws hw] at htext
    exact ⟨hclosed, htext ▸ .emptyArray ws_nil, htext ▸ hline (by decide) (by decide) nofun⟩
  | array h =>
    have hc := Separated.compacts (fun _ _ => Trailed.compacts fun _ _ => Element.compacts hE) h
    obtain ⟨htext, hclosed⟩ := @compact_bracketed _ '[' ']' (by decide) (by decide) hc.closed
    exact ⟨hclosed, htext ▸ .array hc.denotes, htext ▸ hline (by decide) (by decide) hc.oneLine⟩
  | emptyObject hw =>
    obtain ⟨htext, hclosed⟩ := @compact_bracketed _ '{' '}' (by decide) (by decide) hw.afterAll
    rw [compact_of_ws hw] at htext
    exact ⟨hclosed, htext ▸ .emptyObject ws_nil, htext ▸ hline (by decide) (by decide) nofun⟩
  | object h hkeys =>
    have hc := Separated.compacts (fun _ _ => Trailed.compacts fun _ _ => Member.compacts hE) h
    obtain ⟨htext, hclosed⟩ := @compact_bracketed _ '{' '}' (by decide) (by decide) hc.closed
    exact ⟨hclosed, htext ▸ .object hc.denotes hkeys,
      htext ▸ hline (by decide) (by decide) hc.oneLine⟩

end

/-- The compact form of a value denotes the value, on one line. -/
theorem Denotes.compacts (h : Denotes d t v) : Compacts (Denotes d) t v := by
  induction d generalizing t v with
  | zero => exact Scalar.compacts h
  | succ d ih =>
    rcases h with h | h
    · have hc := h.compacts
      exact ⟨hc.closed, .inl hc.denotes, hc.oneLine⟩
    · have hc := Compound.compacts (fun _ _ => ih) h
      exact ⟨hc.closed, .inr hc.denotes, hc.oneLine⟩

theorem Text.compacts (h : Text d t v) : Compacts (Text d) t v :=
  Trailed.compacts (fun _ _ => Element.compacts fun _ _ => Denotes.compacts) h

theorem compact_compact (l : List Char) : compact (compact l) = compact l :=
  Place.compact_compact .outside l

end JsonText
