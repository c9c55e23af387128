import AgentUplink.Fs.Path

/-!
# What a virtual path can express

A path that was built by parsing, joining and taking parents is the list of its
components, each of which passes the checks. The text is the components with a `/` before
each, so parsing, joining and parents are what they look like on lists, and one path lies
within another when its list extends the other's.
-/

namespace AgentUplink.Fs

open Utf8 List

/-! ## Components -/

/-- A component as the checks leave it. -/
structure Clean (component : String) : Prop where
  ne_empty : component ≠ ""
  ne_dot : component ≠ "."
  ne_dotDot : component ≠ ".."
  short : component.utf8ByteSize ≤ maxComponentBytes
  chars : ∀ c ∈ component.toList,
    c ≠ '/' ∧ c ≠ '\\' ∧ c ≠ ':' ∧ 0x1F < c.val.toNat ∧ c.val.toNat ≠ 0x7F
  last : component.toList.getLast? ≠ some '.' ∧ component.toList.getLast? ≠ some ' '
  stem : isReservedDeviceStem component = false

variable {cs : List String} {component c : String} {byte : UInt8}

theorem refusedByte_eq_none (h : refusedComponentByte byte = none) : refusedByte byte = none := by
  unfold refusedComponentByte at h
  unfold refusedByte
  split_ifs at h ⊢
  rfl

theorem checkComponent_bytes (h : checkComponent component = .ok ()) :
    ∀ byte ∈ bytes component, refusedComponentByte byte = none := by
  unfold checkComponent at h
  split at h; · cases h
  split at h; · cases h
  split at h; · cases h
  split at h; · cases h
  split at h; · cases h
  next hnone => exact List.findSome?_eq_none_iff.1 hnone

theorem clean_of_checkComponent (h : checkComponent component = .ok ()) : Clean component := by
  have hbytes := checkComponent_bytes h
  unfold checkComponent at h
  split at h; · cases h
  next hempty =>
  split at h; · cases h
  next hshort =>
  split at h; · cases h
  next hdot =>
  split at h; · cases h
  next hdotDot =>
  split at h; · cases h
  split at h; · cases h
  next hlast =>
  split at h; · cases h
  next hstem =>
  refine ⟨by simpa using hempty, hdot, hdotDot, Nat.le_of_not_lt hshort, fun c hc => ?_,
    not_or.1 hlast, by simpa using hstem⟩
  have hlow : ∀ n < 0x80, refusedComponentByte (UInt8.ofNat n) = none → Char.ofNat n ≠ '/' ∧
      Char.ofNat n ≠ '\\' ∧ Char.ofNat n ≠ ':' ∧ 0x1F < n ∧ n ≠ 0x7F := by decide
  by_cases hascii : c.val ≤ 127
  · have hclean := hlow c.toNat (Nat.lt_succ_of_le hascii) (hbytes _ (mem_bytes hascii hc))
    rwa [Char.ofNat_toNat] at hclean
  · have hlarge : 127 < c.val.toNat := Nat.lt_of_not_le hascii
    refine ⟨?_, ?_, ?_, by omega, by omega⟩ <;>
      rintro rfl <;> exact absurd hlarge (by decide)

theorem Clean.no_slash (h : Clean component) : '/' ∉ component.toList :=
  fun hmem => (h.chars _ hmem).1 rfl

/-! ## Texts -/

def spell (components : List String) : List Char := components.flatMap fun c => '/' :: c.toList

theorem spell_append (cs ds : List String) : spell (cs ++ ds) = spell cs ++ spell ds :=
  flatMap_append

theorem spell_cons (c : String) (cs : List String) :
    spell (c :: cs) = '/' :: (c.toList ++ spell cs) :=
  flatMap_cons

theorem splitOn_spell (hc : '/' ∉ c.toList) (hcs : ∀ d ∈ cs, '/' ∉ d.toList) :
    (c.toList ++ spell cs).splitOn '/' = (c :: cs).map String.toList := by
  induction cs generalizing c with
  | nil =>
    rw [spell, flatMap_nil, append_nil, splitOn_eq_singleton hc]
    rfl
  | cons d ds ih =>
    rw [spell_cons, splitOn_append_cons_self_of_not_mem hc,
      ih (hcs d mem_cons_self) fun e he => hcs e (mem_cons_of_mem d he)]
    rfl

theorem pieces_spell (hc : '/' ∉ c.toList) (hcs : ∀ d ∈ cs, '/' ∉ d.toList) :
    VirtualPath.pieces (c.toList ++ spell cs) = c :: cs := by
  unfold VirtualPath.pieces
  rw [splitOn_spell hc hcs, map_map]
  exact map_id'' (fun d => String.ofList_toList) _

theorem spell_pieces (body : List Char) : spell (VirtualPath.pieces body) = '/' :: body := by
  have hjoin : ∀ (l : List Char) (ls : List (List Char)),
      ['/'].intercalate (l :: ls) = l ++ ls.flatMap fun piece => '/' :: piece := by
    intro l ls
    induction ls generalizing l with
    | nil => simp
    | cons m ms ih =>
      rw [intercalate_cons_cons, ih]
      simp
  have hbody : ['/'].intercalate (body.splitOn '/') = body := intercalate_splitOn '/'
  unfold VirtualPath.pieces spell
  cases hsplit : body.splitOn '/' with
  | nil => exact absurd hsplit (splitOn_ne_nil _ _)
  | cons l ls =>
    rw [hsplit, hjoin] at hbody
    rw [flatMap_map]
    simpa using hbody

theorem spell_injective {ds : List String} (hcs : ∀ c ∈ cs, '/' ∉ c.toList)
    (hds : ∀ d ∈ ds, '/' ∉ d.toList) (h : spell cs = spell ds) : cs = ds := by
  cases cs with
  | nil =>
    cases ds with
    | nil => rfl
    | cons d ds => cases h
  | cons c cs =>
    cases ds with
    | nil => cases h
    | cons d ds =>
      rw [spell_cons, spell_cons] at h
      have hbody := cons_inj_right _ |>.1 h
      rw [← pieces_spell (hcs c mem_cons_self) fun e he => hcs e (mem_cons_of_mem c he),
        ← pieces_spell (hds d mem_cons_self) fun e he => hds e (mem_cons_of_mem d he),
        hbody]

theorem spell_ne_root (hc : c ≠ "") : spell (cs ++ [c]) ≠ "/".toList := by
  intro h
  have hlength := congrArg List.length h
  rw [spell_append, spell_cons, length_append, length_cons, length_append,
    show "/".toList.length = 1 from rfl] at hlength
  have hpos : c.toList.length ≠ 0 := fun h0 =>
    hc (String.toList_inj.1 (length_eq_zero_iff.1 h0))
  omega

namespace VirtualPath

/-! ## Paths as lists -/

def ofComponents (cs : List String) : VirtualPath :=
  { text := if cs = [] then "/" else String.ofList (spell cs), components := cs.length }

variable {cs : List String} {bounds : PathBounds} {p q : VirtualPath} {c : String}

theorem text_ofComponents (h : cs ≠ []) : (ofComponents cs).text = String.ofList (spell cs) := by
  simp [ofComponents, h]

/-- The components pass the checks and the path the bounds. -/
structure Fits (bounds : PathBounds) (cs : List String) : Prop where
  checked : ∀ c ∈ cs, checkComponent c = .ok ()
  count : cs.length ≤ bounds.maxComponents
  size : (ofComponents cs).text.utf8ByteSize ≤ bounds.maxBytes

theorem Fits.no_slash (h : Fits bounds cs) : ∀ c ∈ cs, '/' ∉ c.toList :=
  fun c hc => (clean_of_checkComponent (h.checked c hc)).no_slash

theorem fits_nil (bounds : PathBounds) : Fits bounds [] where
  checked := by simp
  count := Nat.zero_le _
  size := bounds.maxBytes_pos

theorem componentList_ofComponents (h : ∀ c ∈ cs, '/' ∉ c.toList) (hne : ∀ c ∈ cs, c ≠ "") :
    (ofComponents cs).componentList = cs := by
  cases cs with
  | nil => rfl
  | cons c cs =>
    unfold componentList
    rw [text_ofComponents (cons_ne_nil c cs), String.toList_ofList, spell_cons]
    have hbody : (c.toList ++ spell cs).isEmpty = false := by
      have hc : c.toList ≠ [] := fun hnil =>
        hne c mem_cons_self (String.toList_inj.1 hnil)
      simp [hc]
    simp only [hbody, Bool.false_eq_true, if_false]
    exact pieces_spell (h c mem_cons_self) fun d hd => h d (mem_cons_of_mem c hd)

theorem Fits.componentList (h : Fits bounds cs) : (ofComponents cs).componentList = cs :=
  componentList_ofComponents h.no_slash fun c hc =>
    (clean_of_checkComponent (h.checked c hc)).ne_empty

/-! ## Parsing -/

theorem checkComponents_eq_ok {n m : Nat} (hn : n ≤ bounds.maxComponents) :
    checkComponents bounds n cs = .ok m ↔
      (∀ c ∈ cs, checkComponent c = .ok ()) ∧ n + cs.length ≤ bounds.maxComponents ∧
        m = n + cs.length := by
  induction cs generalizing n with
  | nil =>
    simp only [checkComponents, Except.ok.injEq, not_mem_nil, false_implies, implies_true,
      length_nil, add_zero, true_and]
    constructor
    · rintro rfl
      exact ⟨hn, rfl⟩
    · rintro ⟨_, rfl⟩
      rfl
  | cons c cs ih =>
    unfold checkComponents
    by_cases hmany : n + 1 > bounds.maxComponents
    · rw [if_pos hmany]
      simp only [reduceCtorEq, length_cons, false_iff, not_and]
      intro _ hle
      omega
    · rw [if_neg hmany]
      cases hc : checkComponent c with
      | error e =>
        refine iff_of_false (fun h => nomatch h) fun h => ?_
        have := h.1 c mem_cons_self
        rw [hc] at this
        cases this
      | ok u =>
        have hrest := ih (n := n + 1) (Nat.le_of_not_lt hmany)
        rw [length_cons, forall_mem_cons, hc]
        rw [show n + (cs.length + 1) = n + 1 + cs.length by omega]
        show checkComponents bounds (n + 1) cs = .ok m ↔ _
        simpa using hrest

/-- Parsing accepts the texts of the paths that fit, and each as that path. -/
theorem parse_eq_ok {text : String} :
    parse text bounds = .ok p ↔ ∃ cs, Fits bounds cs ∧ p = ofComponents cs ∧ text = p.text := by
  constructor
  · intro h
    unfold parse at h
    split at h; · cases h
    split at h; · cases h
    next hsize =>
    split at h; · cases h
    next hhead =>
    rw [not_not] at hhead
    split at h; · cases h
    split at h
    · next hroot =>
      cases h
      exact ⟨[], fits_nil bounds, rfl, hroot⟩
    next hroot =>
    cases hcheck : checkComponents bounds 0 (pieces text.toList.tail) with
    | error e =>
      rw [hcheck] at h
      cases h
    | ok count =>
      rw [hcheck] at h
      cases h
      obtain ⟨hchecked, hcount, hlength⟩ := (checkComponents_eq_ok (Nat.zero_le _)).1 hcheck
      rw [zero_add] at hcount hlength
      have htext : text = String.ofList (spell (pieces text.toList.tail)) := by
        rw [spell_pieces, cons_head?_tail hhead, String.ofList_toList]
      have hne : pieces text.toList.tail ≠ [] := by
        intro hnil
        exact splitOn_ne_nil _ _ (map_eq_nil_iff.1 hnil)
      have hpath : (ofComponents (pieces text.toList.tail)).text = text := by
        rw [text_ofComponents hne, ← htext]
      refine ⟨pieces text.toList.tail, ⟨hchecked, hcount, ?_⟩, ?_, rfl⟩
      · rw [hpath]
        exact Nat.le_of_not_lt hsize
      · exact congrArg₂ VirtualPath.mk hpath.symm hlength
  · rintro ⟨cs, hfits, rfl, rfl⟩
    cases cs with
    | nil =>
      have hsize : ¬ "/".utf8ByteSize > bounds.maxBytes := Nat.not_lt_of_le bounds.maxBytes_pos
      have hbytes : (bytes "/").findSome? refusedByte = none := by decide
      unfold parse
      simp [ofComponents, hbytes, root, hsize]
    | cons c cs =>
      have htext := text_ofComponents (cons_ne_nil c cs)
      have hclean := clean_of_checkComponent (hfits.checked c mem_cons_self)
      have hlist : (ofComponents (c :: cs)).text.toList = '/' :: (c.toList ++ spell cs) := by
        rw [htext, String.toList_ofList, spell_cons]
      have hbytes : (bytes (ofComponents (c :: cs)).text).findSome? refusedByte = none := by
        rw [List.findSome?_eq_none_iff, htext, bytes_ofList]
        intro byte hbyte
        obtain ⟨char, hchar, hbyte⟩ := mem_flatMap.1 hbyte
        obtain ⟨d, hd, hchar⟩ := mem_flatMap.1 hchar
        rcases mem_cons.1 hchar with rfl | hchar
        · rw [String.utf8EncodeChar_eq_singleton (by decide), mem_singleton] at hbyte
          rw [hbyte]
          decide
        · refine refusedByte_eq_none (checkComponent_bytes (hfits.checked d hd) byte ?_)
          rw [bytes_eq, mem_flatMap]
          exact ⟨char, hchar, hbyte⟩
      have hroot : (ofComponents (c :: cs)).text ≠ "/" := by
        intro heq
        have hchars := congrArg String.toList heq
        rw [hlist] at hchars
        have hnil : c.toList ++ spell cs = [] := (List.cons.inj hchars).2
        exact hclean.ne_empty (String.toList_inj.1 (append_eq_nil_iff.1 hnil).1)
      have hempty : (ofComponents (c :: cs)).text.isEmpty = false := by
        rw [← Bool.not_eq_true, String.isEmpty_iff]
        intro heq
        rw [heq] at hlist
        cases hlist
      have hcheck : checkComponents bounds 0 (pieces (c.toList ++ spell cs)) =
          .ok (c :: cs).length := by
        rw [pieces_spell hclean.no_slash fun d hd => hfits.no_slash d (mem_cons_of_mem c hd),
          checkComponents_eq_ok (Nat.zero_le _)]
        exact ⟨hfits.checked, by simpa using hfits.count, (zero_add _).symm⟩
      unfold parse
      rw [if_neg (by simp [hempty]), if_neg (Nat.not_lt_of_le hfits.size), if_neg (by simp [hlist]),
        hbytes]
      rw [if_neg hroot, hlist, tail_cons, hcheck]
      rfl

/-! ## Joining and parents -/

def extended (p : VirtualPath) (component : String) : String :=
  p.text ++ (if p.isRoot then "" else "/") ++ component

theorem isRoot_ofComponents (cs : List String) : (ofComponents cs).isRoot = true ↔ cs = [] := by
  simp [isRoot, ofComponents]

theorem extended_toList (cs : List String) (c : String) :
    ((ofComponents cs).extended c).toList = spell (cs ++ [c]) := by
  unfold extended
  by_cases hcs : cs = []
  · subst hcs
    simp [ofComponents, isRoot, spell]
  · rw [if_neg (by rw [isRoot_ofComponents]; exact hcs), text_ofComponents hcs]
    simp [spell]

/-- Joining a component succeeds as parsing the extended text does, if the component is one. -/
theorem join_eq_ok (hfits : Fits bounds cs) : (ofComponents cs).join c bounds = .ok q ↔
      Fits bounds (cs ++ [c]) ∧ q = ofComponents (cs ++ [c]) := by
  have hjoin : (ofComponents cs).join c bounds =
      (checkComponent c).bind fun _ => parse ((ofComponents cs).extended c) bounds := rfl
  have htext : (ofComponents cs).extended c = (ofComponents (cs ++ [c])).text := by
    rw [text_ofComponents (by simp), ← extended_toList, String.ofList_toList]
  rw [hjoin, htext]
  constructor
  · intro h
    cases hc : checkComponent c with
    | error e =>
      rw [hc] at h
      cases h
    | ok u =>
      rw [hc] at h
      obtain ⟨ds, hds, rfl, heq⟩ := parse_eq_ok.1 h
      have hclean := clean_of_checkComponent hc
      have hslash : ∀ d ∈ cs ++ [c], '/' ∉ d.toList :=
        forall_mem_append.2 ⟨hfits.no_slash, forall_mem_singleton.2 hclean.no_slash⟩
      have hne : ds ≠ [] := by
        rintro rfl
        have hchars := congrArg String.toList heq
        rw [← htext, extended_toList] at hchars
        exact spell_ne_root hclean.ne_empty hchars
      have hspell : spell (cs ++ [c]) = spell ds := by
        rw [text_ofComponents (by simp), text_ofComponents hne] at heq
        simpa using congrArg String.toList heq
      have := spell_injective hslash hds.no_slash hspell
      subst this
      exact ⟨hds, rfl⟩
  · rintro ⟨hds, rfl⟩
    rw [hds.checked c (by simp)]
    exact parse_eq_ok.2 ⟨cs ++ [c], hds, rfl, rfl⟩

theorem join_iff_parse (hfits : Fits bounds cs) : (ofComponents cs).join c bounds = .ok q ↔
      c ≠ "" ∧ '/' ∉ c.toList ∧ parse ((ofComponents cs).extended c) bounds = .ok q := by
  rw [join_eq_ok hfits, parse_eq_ok]
  constructor
  · rintro ⟨hds, rfl⟩
    have hclean := clean_of_checkComponent (hds.checked c (by simp))
    refine ⟨hclean.ne_empty, hclean.no_slash, cs ++ [c], hds, rfl, ?_⟩
    rw [text_ofComponents (by simp), ← extended_toList, String.ofList_toList]
  · rintro ⟨hne, hslash, ds, hds, rfl, heq⟩
    have hchars := congrArg String.toList heq
    rw [extended_toList] at hchars
    have hdsne : ds ≠ [] := by
      rintro rfl
      exact spell_ne_root hne hchars
    rw [text_ofComponents hdsne, String.toList_ofList] at hchars
    have hall : ∀ d ∈ cs ++ [c], '/' ∉ d.toList :=
      forall_mem_append.2 ⟨hfits.no_slash, forall_mem_singleton.2 hslash⟩
    have := spell_injective hall hds.no_slash hchars
    subst this
    exact ⟨hds, rfl⟩

theorem beforeLastSlash_append {l m : List Char} (h : '/' ∉ m) :
    beforeLastSlash (l ++ '/' :: m) = l := by
  unfold beforeLastSlash
  have hdrop : (m.reverse ++ '/' :: l.reverse).dropWhile (· ≠ '/') = '/' :: l.reverse := by
    rw [dropWhile_append_of_pos]
    · simp
    · intro c hc
      rw [mem_reverse] at hc
      have : c ≠ '/' := fun heq => h (heq ▸ hc)
      simpa using this
  simp only [reverse_append, reverse_cons, append_assoc, singleton_append]
  rw [hdrop]
  simp

theorem parent_ofComponents (hc : '/' ∉ c.toList) :
    (ofComponents (cs ++ [c])).parent = some (ofComponents cs) := by
  have hroot : (ofComponents (cs ++ [c])).isRoot = false := by
    rw [← Bool.not_eq_true, isRoot_ofComponents]
    simp
  have hcut : beforeLastSlash (ofComponents (cs ++ [c])).text.toList = spell cs := by
    rw [text_ofComponents (by simp), String.toList_ofList, spell_append]
    have : spell [c] = '/' :: c.toList := by simp [spell]
    rw [this, beforeLastSlash_append hc]
  unfold parent
  rw [hroot, if_neg Bool.false_ne_true, hcut]
  cases cs with
  | nil => rfl
  | cons d ds => simp [spell_cons, ofComponents]

theorem Fits.init (h : Fits bounds (cs ++ [c])) : Fits bounds cs where
  checked d hd := h.checked d (mem_append_left _ hd)
  count := by
    have := h.count
    rw [length_append] at this
    omega
  size := by
    cases cs with
    | nil => exact bounds.maxBytes_pos
    | cons d ds =>
      have hsize := h.size
      rw [text_ofComponents (by simp), ← length_bytes, bytes_ofList] at hsize ⊢
      rw [spell_append, flatMap_append, length_append] at hsize
      omega

/-! ## Obtainable paths -/

/-- The paths that the root and parsing give, under joins and parents. -/
inductive Obtainable (bounds : PathBounds) : VirtualPath → Prop
  | root : Obtainable bounds root
  | parse {text : String} {p : VirtualPath} : parse text bounds = .ok p → Obtainable bounds p
  | join {p q : VirtualPath} {component : String} : Obtainable bounds p →
      p.join component bounds = .ok q → Obtainable bounds q
  | parent {p q : VirtualPath} : Obtainable bounds p → p.parent = some q → Obtainable bounds q

theorem Obtainable.fits (h : Obtainable bounds p) : ∃ cs, Fits bounds cs ∧ p = ofComponents cs := by
  induction h with
  | root => exact ⟨[], fits_nil bounds, rfl⟩
  | parse hparse =>
    obtain ⟨cs, hcs, hp, _⟩ := parse_eq_ok.1 hparse
    exact ⟨cs, hcs, hp⟩
  | join _ hjoin ih =>
    obtain ⟨cs, hcs, rfl⟩ := ih
    obtain ⟨hds, rfl⟩ := (join_eq_ok hcs).1 hjoin
    exact ⟨_, hds, rfl⟩
  | parent _ hparent ih =>
    obtain ⟨cs, hcs, rfl⟩ := ih
    rcases eq_nil_or_concat cs with rfl | ⟨init, c, rfl⟩
    · cases hparent
    · rw [concat_eq_append] at hcs hparent
      rw [parent_ofComponents (hcs.no_slash c (by simp))] at hparent
      cases hparent
      exact ⟨init, hcs.init, rfl⟩

/-! ## Containment -/

theorem within_iff {mine theirs : List String} : within mine theirs = true ↔ theirs <+: mine := by
  induction theirs generalizing mine with
  | nil => simp [within]
  | cons t ts ih =>
    cases mine with
    | nil => simp [within]
    | cons m ms =>
      unfold within
      by_cases hmt : m = t
      · rw [if_pos hmt, ih, hmt, cons_prefix_cons]
        simp
      · rw [if_neg hmt, cons_prefix_cons]
        simp [Ne.symm hmt]

theorem isWithin_iff : p.isWithin q = true ↔ q.componentList <+: p.componentList := within_iff

theorem Obtainable.eq_of_componentList (hp : Obtainable bounds p) (hq : Obtainable bounds q)
    (h : p.componentList = q.componentList) : p = q := by
  obtain ⟨cs, hcs, rfl⟩ := hp.fits
  obtain ⟨ds, hds, rfl⟩ := hq.fits
  rw [hcs.componentList, hds.componentList] at h
  rw [h]

/-- A path joined with names lies within the one it started from. -/
theorem Obtainable.join_within (hp : Obtainable bounds p) (h : p.join c bounds = .ok q) :
    q.componentList = p.componentList ++ [c] := by
  obtain ⟨cs, hcs, rfl⟩ := hp.fits
  obtain ⟨hds, rfl⟩ := (join_eq_ok hcs).1 h
  rw [hcs.componentList, hds.componentList]

end VirtualPath

end AgentUplink.Fs
