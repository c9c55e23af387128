import AgentUplink.Http.JsonGrammar
import AgentUplink.Lib.JsonAbnf
import AgentUplink.Lib.JsonCompact
import AgentUplink.Mcp.Json

/-!
# What the MCP scanner accepts and copies

The scanner and the parser for HTTP heads go through a text in step and fail together, so the
scanner accepts the texts of the JSON grammar whose top level is an object and that nest at most
64 deep. What it has copied is the compact form of what it has read.
-/

open JsonText Fallible

namespace AgentUplink.Mcp

open Http List Parser

namespace Scanner

variable {t rest input : List Char} {c : Char} {s s' : Scanner} {n : Nat}

variable {out decoded cs : List Char} {fuel : Nat} {v : Value}

/-! ## Numbers -/

section

variable (input : List Char)

theorem someDigits_alike : Alike Eq (someDigits input) (Parser.someDigits input) :=
  .ite .rfl (fun _ => .ok rfl) fun _ => .error _ _

theorem intPart_alike : Alike Eq (intPart input) (Parser.intPart input) := by
  fun_cases intPart input with
  | case1 l => exact .ok rfl
  | case2 input hzero =>
    rw [Parser.intPart]
    · exact someDigits_alike input
    · exact hzero

theorem fracPart_alike : Alike Eq (fracPart input) (Parser.fracPart input) := by
  fun_cases fracPart input with
  | case1 l => exact someDigits_alike l
  | case2 input hdot =>
    rw [Parser.fracPart]
    · exact .ok rfl
    · exact hdot

theorem expPart_alike : Alike Eq (expPart input) (Parser.expPart input) := by
  fun_cases expPart input with
  | case1 l | case2 l => exact someDigits_alike _
  | case3 input hlower hupper =>
    rw [Parser.expPart]
    · exact .ok rfl
    · exact hlower
    · exact hupper

end

theorem number_alike (s : Scanner) :
    Alike (fun s' p => s' = s.copyTo p.2) s.number (Parser.number s.input) := by
  refine (intPart_alike _).bind ?_
  rintro l _ rfl
  refine (fracPart_alike l).bind ?_
  rintro l _ rfl
  refine (expPart_alike l).bind ?_
  rintro l _ rfl
  exact .ok rfl

/-! ## Strings -/

theorem hexFor_append {value : Nat} (ds : List Char) :
    hexFor ds.length value (ds ++ rest) = (match hexNumber value ds with
      | some m => .ok (m, rest)
      | none => .error .syntaxError) := by
  fun_induction hexNumber value ds with
  | case1 => rfl
  | case2 n c l d hd ih =>
    rw [cons_append, length_cons, hexFor, hd, ← ih, mul_comm]
  | case3 n c l hd => rw [cons_append, length_cons, hexFor, hd]

theorem hexFor_of_length_lt {value : Nat} (h : input.length < n) :
    hexFor n value input = .error .syntaxError := by
  fun_induction hexFor n value input with
  | case1 => cases h
  | case2 | case4 => rfl
  | case3 n value c rest d hd ih => exact ih (Nat.lt_of_succ_lt_succ h)

theorem hex4_alike (input : List Char) : Alike Eq (hex4 input) (Parser.hex4 input) := by
  rcases input with _ | ⟨a, _ | ⟨b, _ | ⟨c, _ | ⟨d, l⟩⟩⟩⟩
  case cons.cons.cons.cons =>
    have h := @hexFor_append l 0 [a, b, c, d]
    change hex4 (a :: b :: c :: d :: l) = _ at h
    rw [h, Parser.hex4]
    cases hexNumber 0 [a, b, c, d] with
    | none => exact .error _ _
    | some n => exact .ok rfl
  all_goals
    rw [hex4, hexFor_of_length_lt (by simp)]
    exact .error _ _

theorem pushScalar_alike {e : CodecError} (scalar : Nat) :
    Alike Eq (pushScalar scalar rest) (match Parser.charFromU32 scalar with
      | some c => .ok (c, rest)
      | none => .error e) := by
  unfold pushScalar Parser.charFromU32
  split_ifs
  · exact .ok rfl
  · exact .error _ _

theorem unicodeEscape_alike (first : Nat) :
    Alike Eq (unicodeEscape first input) (Parser.unicodeEscape first input) := by
  refine .ite (and_congr_right fun _ => Nat.lt_succ_iff) (fun _ => ?_) fun _ =>
    .ite (and_congr_right fun _ => Nat.lt_succ_iff) (fun _ => .error _ _) fun _ =>
      pushScalar_alike first
  by_cases hpair : ∃ l, input = '\\' :: 'u' :: l
  · obtain ⟨l, rfl⟩ := hpair
    refine (hex4_alike l).bind ?_
    rintro ⟨second, l⟩ _ rfl
    refine .ite (and_congr_right fun _ => Nat.lt_succ_iff).not (fun _ => .error _ _) fun _ => ?_
    generalize 0x10000 + ((first - 0xd800) <<< 10) + (second - 0xdc00) = scalar
    exact pushScalar_alike scalar
  · refine .of_ok (fun _ h => absurd h ?_) fun _ h => absurd h ?_
    · rcases input with _ | ⟨a, _ | ⟨b, l⟩⟩
      · nofun
      · dsimp only
        split_ifs <;> nofun
      · dsimp only
        split_ifs with ha hb
        · nofun
        · nofun
        · exact absurd ⟨l, by rw [not_not.1 ha, not_not.1 hb]⟩ hpair
    · split
      · exact absurd ⟨_, rfl⟩ hpair
      · nofun

theorem escape_alike (input : List Char) : Alike Eq (escape input) (Parser.escape input) := by
  fun_cases escape input with
  | case9 l =>
    refine (hex4_alike l).bind ?_
    rintro ⟨first, l⟩ _ rfl
    exact unicodeEscape_alike first
  | case10 l =>
    rw [Parser.escape]
    · exact .error _ _
    all_goals assumption
  | _ => exact .ok rfl

theorem stringFor_alike {fuel' : Nat} (hfuel : input.length < fuel)
    (hfuel' : input.length < fuel') :
    Alike Eq (stringFor fuel decoded input) (Parser.stringFor fuel' decoded input) := by
  induction fuel generalizing decoded input fuel' with
  | zero => exact absurd hfuel (Nat.not_lt_zero _)
  | succ fuel ih =>
    obtain ⟨fuel', rfl⟩ := Nat.exists_eq_succ_of_ne_zero (Nat.ne_of_gt (Nat.zero_lt_of_lt hfuel'))
    cases input with
    | nil => exact .error _ _
    | cons c l =>
      rw [length_cons] at hfuel hfuel'
      by_cases hplain : isPlain c = true
      · obtain ⟨hc, hquote, hescape⟩ := isPlain_iff.1 hplain
        rw [stringFor, if_neg hquote, if_neg hescape, if_neg (not_lt.2 hc), stringFor_plain hplain]
        exact ih (by omega) (by omega)
      · rw [stringFor, Parser.stringFor, dropWhile_cons_of_neg hplain,
          takeWhile_cons_of_neg hplain, append_nil]
        split_ifs with hquote hescape hcontrol
        · subst hquote
          exact .ok rfl
        · subst hescape
          have hread := escape_alike l
          show Alike Eq (escape l >>= _) (Parser.escape l >>= _)
          generalize escape l = x, hy : Parser.escape l = y at hread ⊢
          cases hread with
          | error => exact .error _ _
          | @ok p q heq =>
            subst heq
            obtain ⟨t, rfl, -⟩ := Parser.escape_eq_ok.1 hy
            rw [length_append] at hfuel hfuel'
            exact ih (by omega) (by omega)
        · split
          · next heq =>
            cases heq
            exact absurd rfl hquote
          · next heq =>
            cases heq
            exact absurd rfl hescape
          · exact .error _ _
        · exact absurd (isPlain_iff.2 ⟨Nat.le_of_not_lt hcontrol, hquote, hescape⟩) hplain

/-! ## What a step of the scanner copies -/

/-- The scanner has gone from `s` to `s'` over the text `t`. -/
def Copies (t : List Char) (s s' : Scanner) : Prop :=
  s.input = t ++ s'.input ∧ s'.out = s.out ++ compact t

theorem Copies.trans {t' : List Char} {s₁ s₂ : Scanner} (h : Copies t s s₁)
    (hclosed : Place.outside.afterAll t = .outside) (h' : Copies t' s₁ s₂) :
    Copies (t ++ t') s s₂ := by
  refine ⟨?_, ?_⟩
  · rw [h.1, h'.1, append_assoc]
  · rw [h'.2, h.2, compact_append_of_closed hclosed, append_assoc]

/-- The scanner has gone from `s` to `s'`, where `rest` is left, over a text that ends outside
its strings. -/
def Reaches (s s' : Scanner) (rest : List Char) : Prop :=
  s'.input = rest ∧ ∃ t, Copies t s s' ∧ Place.outside.afterAll t = .outside

theorem Reaches.trans {s₁ : Scanner} {l : List Char} (h : Reaches s s₁ l)
    (h' : Reaches s₁ s' rest) : Reaches s s' rest := by
  obtain ⟨-, t, hcopies, hclosed⟩ := h
  obtain ⟨hrest, t', hcopies', hclosed'⟩ := h'
  refine ⟨hrest, t ++ t', hcopies.trans hclosed hcopies', ?_⟩
  rw [Place.afterAll_append, hclosed, hclosed']

theorem Reaches.length_le (h : Reaches s s' rest) : rest.length ≤ s.input.length := by
  obtain ⟨rfl, t, ⟨hinput, -⟩, -⟩ := h
  rw [hinput, length_append]
  exact Nat.le_add_left _ _

theorem reaches_of_tight (ht : Tight t) (hinput : s.input = t ++ rest) :
    Reaches s ⟨rest, s.out ++ t⟩ rest :=
  ⟨rfl, t, ⟨hinput, by rw [ht.2]⟩, ht.1⟩

theorem reaches_copyTo (ht : Tight t) (hinput : s.input = t ++ rest) :
    Reaches s (s.copyTo rest) rest := by
  have hcopy : s.copyTo rest = ⟨rest, s.out ++ t⟩ := by
    rw [copyTo, hinput]
    simp
  rw [hcopy]
  exact reaches_of_tight ht hinput

theorem skipWhitespace_input : s.skipWhitespace.input = Parser.skipWhitespace s.input := rfl

theorem reaches_skipWhitespace (s : Scanner) :
    Reaches s s.skipWhitespace (Parser.skipWhitespace s.input) := by
  obtain ⟨w, hsplit, hw⟩ := skipWhitespace_split s.input
  refine ⟨rfl, w, ⟨hsplit, ?_⟩, hw.afterAll⟩
  rw [compact_of_ws hw, append_nil]
  rfl

theorem expect_of_input (h : s.input = c :: rest) : s.expect c = .ok ⟨rest, s.out ++ [c]⟩ := by
  rw [expect, h]
  exact if_pos rfl

theorem expect_error (h : ¬ ∃ rest, s.input = c :: rest) : s.expect c = .error .syntaxError := by
  unfold expect
  split
  · next hinput => exact if_neg fun hc => h ⟨_, hc ▸ hinput⟩
  · rfl

theorem reaches_cons (hquote : c ≠ '"') (hws : isWs c = false) (h : s.input = c :: rest) :
    Reaches s ⟨rest, s.out ++ [c]⟩ rest :=
  reaches_of_tight (tight_singleton hquote hws) h

/-! ## Values -/

/-- The scanner has gone where the parser is, and answers `f` of what the parser answers. -/
def Answers {α β : Type} (f : β → α) (s : Scanner) (p : α × Scanner) (q : β × List Char) : Prop :=
  p.1 = f q.1 ∧ Reaches s p.2 q.2

theorem string_alike {l : List Char} (hinput : s.input = '"' :: l) :
    Alike (Answers id s) s.string (Parser.string l) := by
  have hstring : s.string = (stringFor (l.length + 1) [] l).map fun p =>
      (String.ofList p.1, s.copyTo p.2) := by
    rw [string, hinput]
    rfl
  have hfuel := Nat.lt_succ_self l.length
  rw [hstring]
  refine .of_ok ?_ ?_
  · rintro p h
    obtain ⟨⟨cs, rest⟩, hread, rfl⟩ := except_map_eq_ok.1 h
    obtain ⟨_, hread, rfl⟩ := (stringFor_alike hfuel hfuel).ok_left hread
    have hstring : Parser.string l = .ok (String.ofList cs, rest) := by
      rw [Parser.string, hread]
      rfl
    obtain ⟨t, cs, rfl, ht, -⟩ := string_sound hstring
    refine ⟨_, hstring, rfl, reaches_copyTo ht.inner.tight ?_⟩
    rw [hinput]
    simp
  · rintro p h
    obtain ⟨q, hread, -⟩ := except_bind_eq_ok.1 h
    obtain ⟨_, hread, -⟩ := (stringFor_alike hfuel hfuel).ok_right hread
    exact ⟨_, except_map_eq_ok.2 ⟨_, hread, rfl⟩⟩

theorem string_error (h : ¬ ∃ rest, s.input = '"' :: rest) : s.string = .error .syntaxError := by
  unfold string
  split
  · next hinput => exact absurd ⟨_, hinput⟩ h
  · rfl

theorem literal_alike (ht : Tight t) (v : Value) :
    Alike (fun s' q => Reaches s s' q.2) (s.literal t) (Parser.expectLiteral t v s.input) := by
  refine .ite .rfl (fun htake => .ok (reaches_of_tight ht ?_)) fun _ => .error _ _
  conv_lhs => rw [← take_append_drop t.length s.input, htake]

theorem scalar_alike (s : Scanner) :
    Alike (fun s' q => Reaches s s' q.2) s.scalar (Parser.scalar s.input) := by
  unfold scalar
  split
  · next l hinput =>
    rw [hinput]
    refine (string_alike hinput).bind ?_
    rintro ⟨_, s'⟩ ⟨key, rest⟩ ⟨-, h⟩
    exact .ok h
  · next hinput =>
    have h := @literal_alike _ s (tight_of_all (l := ['t', 'r', 'u', 'e']) rfl) (.bool true)
    rw [hinput] at h ⊢
    exact h
  · next hinput =>
    have h := @literal_alike _ s (tight_of_all (l := ['f', 'a', 'l', 's', 'e']) rfl) (.bool false)
    rw [hinput] at h ⊢
    exact h
  · next hinput =>
    have h := @literal_alike _ s (tight_of_all (l := ['n', 'u', 'l', 'l']) rfl) .null
    rw [hinput] at h ⊢
    exact h
  · next hinput =>
    rw [hinput, Parser.scalar, ← hinput]
    · refine .ite .rfl (fun _ => ?_) fun _ => .error _ _
      refine .of_ok (fun s' h => ?_) fun p h => ?_
      · obtain ⟨⟨v, rest⟩, hread, rfl⟩ := (number_alike s).ok_left h
        obtain ⟨t, hsplit, ht, -⟩ := number_sound hread
        exact ⟨_, hread, reaches_copyTo
          (tight_of_forall fun c hc => ⟨(ht.plain c hc).1, (ht.plain c hc).2.1⟩) hsplit⟩
      · obtain ⟨s', hread, -⟩ := (number_alike s).ok_right h
        exact ⟨s', hread⟩
    all_goals assumption
  · next hinput =>
    rw [hinput]
    exact .error _ _

section Compound

variable {α β : Type} {item : List α → Scanner → Except JsonError (α × Scanner)}
  {read : List β → List Char → Except CodecError (β × List Char)} {f : β → α} {close : Char}
  {items : List β} {fuel' : Nat}

theorem separated_alike
    (hitem : ∀ items s, Alike (Answers f s) (item (items.map f) s) (read items s.input))
    (hquote : close ≠ '"') (hws : isWs close = false) (hfuel : s.input.length < fuel)
    (hfuel' : s.input.length < fuel') :
    Alike (fun s' q => Reaches s s' q.2) (separated item close fuel (items.map f) s)
      (Parser.separated read close fuel' items s.input) := by
  induction fuel generalizing items s fuel' with
  | zero => exact absurd hfuel (Nat.not_lt_zero _)
  | succ fuel ih =>
    obtain ⟨fuel', rfl⟩ := Nat.exists_eq_succ_of_ne_zero (Nat.ne_of_gt (Nat.zero_lt_of_lt hfuel'))
    refine (hitem items s).bind ?_
    rintro ⟨a, s₁⟩ ⟨b, l⟩ ⟨ha, hfirst⟩
    dsimp only at ha hfirst ⊢
    subst ha
    obtain rfl := hfirst.1
    have hpassed := hfirst.trans (reaches_skipWhitespace s₁)
    rw [← skipWhitespace_input] at hpassed ⊢
    cases hinput : s₁.skipWhitespace.input with
    | nil => exact .error _ _
    | cons c l =>
      rw [hinput] at hpassed
      have hlength := hpassed.length_le
      refine .ite (by simp) (fun hcomma => ?_) fun _ =>
        .ite (by simp) (fun hclose => ?_) fun _ => .error _ _
      · cases hcomma
        have hmap : items.map f ++ [f b] = (items ++ [b]).map f := by simp
        rw [expect_of_input hinput, except_ok_bind, hmap]
        refine (ih (Nat.lt_of_lt_of_le hlength (Nat.le_of_lt_succ hfuel))
          (Nat.lt_of_lt_of_le hlength (Nat.le_of_lt_succ hfuel'))).mono fun _ _ h => ?_
        exact hpassed.trans ((reaches_cons (by decide) rfl hinput).trans h)
      · cases hclose
        rw [expect_of_input hinput]
        exact .ok (hpassed.trans (reaches_cons hquote hws hinput))

theorem bracketed_alike {mk : List β → Value}
    (hitem : ∀ items s, Alike (Answers f s) (item (items.map f) s) (read items s.input))
    (hquote : close ≠ '"') (hws : isWs close = false) (s : Scanner) :
    Alike (fun s' q => Reaches s s' q.2)
      (if s.skipWhitespace.input.head? = some close then s.skipWhitespace.expect close
        else separated item close (s.skipWhitespace.input.length + 1) [] s.skipWhitespace)
      (Parser.bracketed read close mk s.input) := by
  have hskip := reaches_skipWhitespace s
  refine .ite .rfl (fun hclose => ?_) fun _ => ?_
  · obtain ⟨l, hinput⟩ := List.head?_eq_some_iff.1 hclose
    rw [expect_of_input hinput, ← skipWhitespace_input, hinput]
    exact .ok (hskip.trans (reaches_cons hquote hws hinput))
  · have h : Alike _ (separated item close _ (([] : List β).map f) s.skipWhitespace)
        (Parser.separated read close (s.input.length + 1) [] s.skipWhitespace.input) :=
      separated_alike hitem hquote hws (Nat.lt_succ_self _) (Nat.lt_succ_of_le hskip.length_le)
    exact h.map_right fun _ _ h => hskip.trans h

end Compound

section Values

variable {value : Scanner → Except JsonError Scanner}
  {parse : List Char → Except CodecError (Value × List Char)} {l : List Char}

section

variable
  (hv : ∀ s, Alike (fun s' q => Reaches s s' q.2) (value s) (Parser.element parse [] s.input))
include hv
theorem member_alike (entries : List (String × Value)) (s : Scanner) :
    Alike (Answers Prod.fst s) (member value (entries.map Prod.fst) s)
      (Parser.member parse entries s.input) := by
  unfold member Parser.member
  by_cases hquote : ∃ l, Parser.skipWhitespace s.input = '"' :: l
  · obtain ⟨l, hinput⟩ := hquote
    rw [hinput]
    refine (string_alike hinput).bind ?_
    rintro ⟨_, s₁⟩ ⟨key, rest⟩ ⟨hkey, hfirst⟩
    subst hkey
    obtain rfl := hfirst.1
    refine .ite .rfl (fun _ => .error _ _) fun _ => ?_
    have hpassed := ((reaches_skipWhitespace s).trans hfirst).trans (reaches_skipWhitespace s₁)
    by_cases hcolon : ∃ l, Parser.skipWhitespace s₁.input = ':' :: l
    · obtain ⟨l, hinput⟩ := hcolon
      rw [hinput, expect_of_input hinput, except_ok_bind]
      refine (hv _).bind fun s₂ q h => .ok ⟨rfl, ?_⟩
      exact hpassed.trans ((reaches_cons (by decide) rfl hinput).trans h)
    · rw [expect_error hcolon]
      split
      · next hinput => exact absurd ⟨_, hinput⟩ hcolon
      · exact .error _ _
  · rw [string_error hquote]
    split
    · next hinput => exact absurd ⟨_, hinput⟩ hquote
    · exact .error _ _

theorem array_alike {s : Scanner} (hinput : s.input = '[' :: l) :
    Alike (fun s' q => Reaches s s' q.2) (array value s) (Parser.array parse l) := by
  rw [array, expect_of_input hinput, except_ok_bind, Parser.array_eq]
  exact (bracketed_alike (f := fun _ => ()) (fun _ s => (hv s).map_left fun _ _ h => ⟨rfl, h⟩)
    (by decide) rfl _).mono fun _ _ h => (reaches_cons (by decide) rfl hinput).trans h

theorem object_alike {s : Scanner} (hinput : s.input = '{' :: l) :
    Alike (fun s' q => Reaches s s' q.2) (object value s) (Parser.object parse l) := by
  rw [object, expect_of_input hinput, except_ok_bind, Parser.object_eq]
  exact (bracketed_alike (member_alike hv) (by decide) rfl _).mono fun _ _ h =>
    (reaches_cons (by decide) rfl hinput).trans h

end

end Values

/-- The scanner and the parser read the same values. -/
theorem value_alike (levels : Nat) (s : Scanner) :
    Alike (fun s' q => Reaches s s' q.2) (value levels s)
      (Parser.element (Parser.value levels) [] s.input) := by
  have hscalar := fun s : Scanner =>
    (scalar_alike s.skipWhitespace).mono fun _ _ h => (reaches_skipWhitespace s).trans h
  induction levels generalizing s with
  | zero =>
    rw [Parser.element, Parser.value_zero]
    exact .ite .rfl (fun _ => .error _ _) fun _ => hscalar s
  | succ levels ih =>
    have hskip := reaches_skipWhitespace s
    rw [Parser.element, Parser.value_succ]
    refine .ite .rfl (fun hbrace => ?_) fun _ => .ite .rfl (fun hbracket => ?_) fun _ => hscalar s
    · obtain ⟨l, hinput⟩ := List.head?_eq_some_iff.1 hbrace
      rw [← skipWhitespace_input, hinput]
      exact (object_alike ih hinput).mono fun _ _ h => hskip.trans h
    · obtain ⟨l, hinput⟩ := List.head?_eq_some_iff.1 hbracket
      rw [← skipWhitespace_input, hinput]
      exact (array_alike ih hinput).mono fun _ _ h => hskip.trans h

end Scanner

/-! ## Messages -/

theorem denotes_brace_iff {d : Nat} {t : List Char} {v : Value} (h : Denotes d t v) :
    t.head? = some '{' ↔ ∃ ms, v = .object ms := by
  have hscalar : Scalar t v → (t.head? = some '{' ↔ ∃ ms, v = .object ms) := by
    intro hs
    obtain ⟨c, l, hl, -, -, hne⟩ := hs.head
    refine iff_of_false (by simpa [hl] using hne) ?_
    rintro ⟨ms, rfl⟩
    cases hs
  cases d with
  | zero => exact hscalar h
  | succ d =>
    rcases h with h | h
    · exact hscalar h
    · cases h <;> simp

theorem text_brace_iff {d : Nat} {l : List Char} {v : Value} (h : Text d l v) :
    (Parser.skipWhitespace l).head? = some '{' ↔ ∃ ms, v = .object ms := by
  obtain ⟨t, w', rfl, ⟨w, t, rfl, hw, ht⟩, -⟩ := h
  rw [← denotes_brace_iff ht]
  obtain ⟨c, t, rfl, hc⟩ := ht.head
  rw [List.append_assoc, Parser.skipWhitespace_append hw, List.cons_append,
    Parser.skipWhitespace_cons (isWs_of_not_isEnd hc)]
  rfl

open Scanner in
theorem compactObject_eq_ok {b out : List UInt8} :
    compactObject b = .ok out ↔ ∃ text ms, b = Utf8.bytes text ∧
      Text maxDepth text.toList (.object ms) ∧
      out = Utf8.bytes (String.ofList (compact text.toList)) := by
  -- a scan of the whole text has copied its compact form
  have hcopied : ∀ {text : String} {s : Scanner} {rest},
      Reaches (skipWhitespace ⟨text.toList, []⟩) s rest → s.skipWhitespace.input = [] →
        s.skipWhitespace.out = compact text.toList := by
    intro text s rest hpassed hend
    obtain ⟨-, t, ⟨hinput, hout⟩, -⟩ :=
      (reaches_skipWhitespace ⟨text.toList, []⟩).trans (hpassed.trans (reaches_skipWhitespace s))
    rw [hend, List.append_nil] at hinput
    rw [hout, ← hinput]
    rfl
  unfold compactObject
  constructor
  · intro h
    split at h
    · cases h
    · next text htext =>
      dsimp only at h
      split_ifs at h with hhead
      rw [except_bind_eq_ok] at h
      obtain ⟨s, hvalue, h⟩ := h
      split_ifs at h with hend
      rw [not_not] at hhead hend
      cases h
      obtain ⟨⟨v, _⟩, hread, hpassed⟩ := (value_alike maxDepth _).ok_left hvalue
      obtain rfl := hpassed.1
      rw [skipWhitespace_input, (Parser.element_items (Parser.value_accepts _)).skip] at hread
      have hv : Text maxDepth text.toList v := Parser.text_iff.2 ⟨_, hread, hend⟩
      obtain ⟨ms, rfl⟩ := (text_brace_iff hv).1 hhead
      exact ⟨text, ms, Utf8.ofBytes?_eq_some.1 htext, hv, by rw [hcopied hpassed hend]⟩
  · rintro ⟨text, ms, rfl, htext, rfl⟩
    have hbytes : Utf8.ofBytes? (Utf8.bytes text) = some text := Utf8.ofBytes?_eq_some.2 rfl
    have hhead : (skipWhitespace ⟨text.toList, []⟩).input.head? = some '{' :=
      (text_brace_iff htext).2 ⟨ms, rfl⟩
    obtain ⟨rest, hread, hend⟩ := Parser.text_iff.1 htext
    rw [← Parser.skipWhitespace_skipWhitespace] at hread
    obtain ⟨s, hscan, hpassed⟩ :=
      (value_alike maxDepth (skipWhitespace ⟨text.toList, []⟩)).ok_right hread
    obtain rfl := hpassed.1
    rw [← skipWhitespace_input] at hend
    rw [hbytes]
    dsimp only
    rw [if_neg (not_not.2 hhead), hscan, except_ok_bind]
    rw [if_neg (not_not.2 hend), hcopied hpassed hend]

/-- The bytes of a text of one line have neither of the bytes that end a line. -/
theorem oneLine_bytes {l : List Char} (h : OneLine l) :
    0x0A ∉ Utf8.bytes (String.ofList l) ∧ 0x0D ∉ Utf8.bytes (String.ofList l) := by
  have hmem : ∀ b : UInt8, b.toNat < 0x80 → b ∈ Utf8.bytes (String.ofList l) →
      Char.ofNat b.toNat ∈ l := by
    intro b hb hin
    have hchar := Utf8.mem_of_mem_bytes hb hin
    rwa [String.toList_ofList] at hchar
  refine ⟨fun hin => ?_, fun hin => ?_⟩
  · exact (h _ (hmem 0x0A (by decide) hin)).1 rfl
  · exact (h _ (hmem 0x0D (by decide) hin)).2 rfl

/-- The scanner accepts the JSON objects whose strings denote characters. What it returns is the
message without the white space outside its strings: one line that denotes the same value and
that the scanner returns unchanged. -/
theorem compactObject_exact :
    (∀ b, (∃ out, compactObject b = .ok out) ↔
      ∃ text, b = Utf8.bytes text ∧ JsonAbnf.ObjectText JsonAbnf.WellFormed maxDepth text.toList) ∧
    ∀ text out, compactObject (Utf8.bytes text) = .ok out →
      out = Utf8.bytes (String.ofList (compact text.toList)) ∧
      0x0A ∉ out ∧ 0x0D ∉ out ∧
      (∀ v, Text maxDepth text.toList v → Text maxDepth (compact text.toList) v) ∧
      compactObject out = .ok out := by
  refine ⟨fun b => ?_, fun text out h => ?_⟩
  · constructor
    · rintro ⟨out, h⟩
      obtain ⟨text, ms, hb, htext, -⟩ := compactObject_eq_ok.1 h
      exact ⟨text, hb, JsonAbnf.objectText_iff.2 ⟨ms, htext⟩⟩
    · rintro ⟨text, hb, h⟩
      obtain ⟨ms, htext⟩ := JsonAbnf.objectText_iff.1 h
      exact ⟨_, compactObject_eq_ok.2 ⟨text, ms, hb, htext, rfl⟩⟩
  · obtain ⟨text', ms, hbytes, htext, rfl⟩ := compactObject_eq_ok.1 h
    have heq : text = text' := by
      have hread := Utf8.ofBytes?_eq_some.2 hbytes
      rw [Utf8.ofBytes?_eq_some.2 rfl] at hread
      exact Option.some.inj hread
    subst heq
    obtain ⟨hline, hline'⟩ := oneLine_bytes htext.compacts.oneLine
    refine ⟨rfl, hline, hline', fun v hv => hv.compacts.denotes, ?_⟩
    refine compactObject_eq_ok.2 ⟨String.ofList (compact text.toList), ms, rfl, ?_, ?_⟩
    · rw [String.toList_ofList]
      exact htext.compacts.denotes
    · rw [String.toList_ofList, compact_compact]

/-- Two members, the second an object, with white space and escapes inside and outside strings. -/
def spaced : String :=
  "\x7b \"a \" :\t[ 1.50e+3 , \" x\\\" \\u0041\" ] ,\n \"b\":\x7b \"c\" : null \x7d \x7d "

def unspaced : String :=
  "\x7b\"a \":[1.50e+3,\" x\\\" \\u0041\"],\"b\":\x7b\"c\":null\x7d\x7d"

theorem compactObject_exact_spaced :
    compactObject (Utf8.bytes spaced) = .ok (Utf8.bytes unspaced) ∧ 0x0A ∉ Utf8.bytes unspaced ∧
      compactObject (Utf8.bytes unspaced) = .ok (Utf8.bytes unspaced) := by
  have hread : compactObject (Utf8.bytes spaced) = .ok (Utf8.bytes unspaced) := by decide +kernel
  obtain ⟨-, hline, -, -, hagain⟩ := compactObject_exact.2 _ _ hread
  exact ⟨hread, hline, hagain⟩

/-- The grammar allows the escape of half a pair of surrogates, and the scanner does not. -/
theorem compactObject_lone_surrogate :
    ∃ text, JsonAbnf.ObjectText JsonAbnf.Units maxDepth text.toList ∧
      compactObject (Utf8.bytes text) = .error .invalidUtf8 := by
  have hname : JsonAbnf.Units ['a'] [0x61] := .plain (by decide) (by decide) (by decide) .nil
  have hvalue : JsonAbnf.Units ['\\', 'u', 'd', 'e', 'a', 'd'] [0xDEAD] :=
    @JsonAbnf.Units.unicode ['d', 'e', 'a', 'd'] [] 0xDEAD [] ⟨rfl, rfl⟩ .nil
  have hmember : JsonAbnf.Member JsonAbnf.Units (JsonAbnf.Nests JsonAbnf.Units 63)
      ['"', 'a', '"', ':', '"', '\\', 'u', 'd', 'e', 'a', 'd', '"'] [0x61] :=
    ⟨[], ['a'], [], ['"', '\\', 'u', 'd', 'e', 'a', 'd', '"'], rfl, ws_nil, hname, ws_nil,
      [], _, rfl, ws_nil, .inl (.string hvalue)⟩
  refine ⟨String.ofList
    ['{', '"', 'a', '"', ':', '"', '\\', 'u', 'd', 'e', 'a', 'd', '"', '}'], ?_, ?_⟩
  · refine ⟨[], ['{', '"', 'a', '"', ':', '"', '\\', 'u', 'd', 'e', 'a', 'd', '"', '}'], [], rfl,
      ws_nil, ?_, ws_nil⟩
    exact .members (.last (Trailed.compact hmember)) (nodup_singleton _)
  · rw [compactObject, Utf8.ofBytes?_eq_some.2 rfl]
    rfl

end AgentUplink.Mcp
