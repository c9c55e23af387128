import AgentUplink.Lib.Fallible

/-
Readers of a list of tokens.

A reader takes tokens from the front of a list and answers a value or an error.
`Inverts r w valid` says that `r` and the writer `w` are inverse: `r` reads back
every valid value that was written, and whatever `r` accepts was written by `w`.
The rules compose this along the text of a reader.
-/
namespace Reader

open Fallible List

variable {ε τ α β : Type}

def next (missing : ε) (f : τ → Except ε α) : StateT (List τ) (Except ε) α := fun
  | [] => .error missing
  | t :: rest => (f t).map (·, rest)

def complete (extra : ε) (r : StateT (List τ) (Except ε) α) (input : List τ) : Except ε α :=
  match r.run input with
  | .error e => .error e
  | .ok (a, []) => .ok a
  | .ok (_, _ :: _) => .error extra

def take (missing : ε) (n : Nat) : StateT (List τ) (Except ε) (List τ) := fun input =>
  if input.length < n then .error missing else .ok (input.take n, input.drop n)

def times (r : StateT (List τ) (Except ε) α) : Nat → StateT (List τ) (Except ε) (List α)
  | 0 => pure []
  | n + 1 => do
    let a ← r
    let rest ← times r n
    return a :: rest

/-- Report another error where a reader fails. -/
def mapError (f : ε → ε) (r : StateT (List τ) (Except ε) α) : StateT (List τ) (Except ε) α :=
  fun input => (r.run input).mapError f

/-! ## Successful runs -/

section Success

variable {input rest : List τ}

variable {r : StateT (List τ) (Except ε) α} {a : α} {b : β} {l : List τ}

theorem run_bind_eq_ok {k : α → StateT (List τ) (Except ε) β} :
    (r >>= k).run input = .ok (b, rest) ↔
      ∃ a middle, r.run input = .ok (a, middle) ∧ (k a).run middle = .ok (b, rest) := by
  show ((r.run input).bind fun p => (k p.1).run p.2) = _ ↔ _
  cases r.run input with
  | error e => simp [Except.bind]
  | ok p =>
    obtain ⟨a, middle⟩ := p
    constructor
    · exact fun h => ⟨a, middle, rfl, h⟩
    · rintro ⟨_, _, hpair, h⟩
      cases hpair
      exact h

theorem run_map_eq_ok {f : α → β} :
    (f <$> r).run input = .ok (b, rest) ↔ ∃ a, r.run input = .ok (a, rest) ∧ f a = b := by
  rw [map_eq_pure_bind, run_bind_eq_ok]
  constructor
  · rintro ⟨a, middle, hr, hpure⟩
    cases hpure
    exact ⟨a, hr, rfl⟩
  · rintro ⟨a, hr, rfl⟩
    exact ⟨a, rest, hr, rfl⟩

theorem run_pure_eq_ok {b : α} :
    (pure a : StateT (List τ) (Except ε) α).run input = .ok (b, rest) ↔ a = b ∧ input = rest := by
  show (Except.ok (a, input) : Except ε _) = _ ↔ _
  simp

theorem run_mapError_eq_ok {f : ε → ε} {p : α × List τ} :
    (mapError f r).run input = .ok p ↔ r.run input = .ok p := by
  show (r.run input).mapError f = _ ↔ _
  cases r.run input <;> simp [Except.mapError]

theorem run_get_eq_ok :
    (get : StateT (List τ) (Except ε) (List τ)).run input = .ok (l, rest) ↔
      input = l ∧ input = rest := by
  show (Except.ok (input, input) : Except ε _) = _ ↔ _
  simp

theorem run_lift_eq_ok {x : Except ε α} :
    (liftM x : StateT (List τ) (Except ε) α).run input = .ok (a, rest) ↔
      x = .ok a ∧ input = rest := by
  cases x <;> simp

theorem take_eq_ok {missing : ε} {n : Nat} :
    (take missing n).run input = .ok (l, rest) ↔ l.length = n ∧ input = l ++ rest := by
  show (if input.length < n then Except.error missing
    else Except.ok (input.take n, input.drop n)) = _ ↔ _
  rw [ite_error_ok, Prod.mk.injEq]
  constructor
  · rintro ⟨hlen, rfl, rfl⟩
    exact ⟨length_take_of_le (Nat.le_of_not_lt hlen), (take_append_drop n input).symm⟩
  · rintro ⟨rfl, rfl⟩
    simp

theorem complete_eq_ok {extra : ε} :
    complete extra r input = .ok a ↔ r.run input = .ok (a, []) := by
  unfold complete
  split <;> simp_all

end Success

structure Inverts (r : StateT (List τ) (Except ε) α) (w : α → List τ) (valid : α → Prop) :
    Prop where
  read_write : ∀ a rest, valid a → r.run (w a ++ rest) = .ok (a, rest)
  write_read : ∀ input a rest, r.run input = .ok (a, rest) → valid a ∧ input = w a ++ rest

variable {r : StateT (List τ) (Except ε) α} {w : α → List τ} {valid : α → Prop} {a : α}

theorem Inverts.run_eq_ok (h : Inverts r w valid) {input rest : List τ} :
    r.run input = .ok (a, rest) ↔ valid a ∧ input = w a ++ rest := by
  constructor
  · exact h.write_read input a rest
  · rintro ⟨hvalid, rfl⟩
    exact h.read_write a rest hvalid

/-- A reader goes on behind a value that was written for it. -/
theorem Inverts.run_bind (h : Inverts r w valid) (ha : valid a)
    (k : α → StateT (List τ) (Except ε) β) (rest : List τ) :
    (r >>= k).run (w a ++ rest) = (k a).run rest := by
  show ((r.run (w a ++ rest)).bind fun p => (k p.1).run p.2) = _
  rw [h.read_write a rest ha]
  rfl

theorem inverts_of_run
    (h : ∀ input a rest, r.run input = .ok (a, rest) ↔ valid a ∧ input = w a ++ rest) :
    Inverts r w valid where
  read_write _ _ ha := (h _ _ _).2 ⟨ha, rfl⟩
  write_read input a rest := (h input a rest).1

theorem inverts_fixed {missing : ε} {n : Nat} {f : List τ → α} (hlen : ∀ a, (w a).length = n)
    (hread : ∀ a, f (w a) = a) (hwrite : ∀ l, l.length = n → w (f l) = l) :
    Inverts (f <$> take missing n) w fun _ => True := by
  apply inverts_of_run
  intro input a rest
  simp only [run_map_eq_ok, take_eq_ok, true_and]
  constructor
  · rintro ⟨l, ⟨hl, rfl⟩, rfl⟩
    rw [hwrite l hl]
  · rintro rfl
    exact ⟨w a, ⟨hlen a, rfl⟩, hread a⟩

theorem inverts_next {missing : ε} {f : τ → Except ε α} {w : α → τ}
    (hread : ∀ a, valid a → f (w a) = .ok a) (hwrite : ∀ t a, f t = .ok a → valid a ∧ t = w a) :
    Inverts (next missing f) (fun a => [w a]) valid where
  read_write a rest ha := by
    show (f (w a)).map (·, rest) = _
    rw [hread a ha]
    rfl
  write_read input a rest h := by
    cases input with
    | nil => cases h
    | cons t ts =>
      have hmap : (f t).map (·, ts) = .ok (a, rest) := h
      obtain ⟨b, hf, hpair⟩ := except_map_eq_ok.1 hmap
      cases hpair
      obtain ⟨hvalid, rfl⟩ := hwrite t a hf
      exact ⟨hvalid, rfl⟩

theorem inverts_pure (b : β) :
    Inverts (pure b : StateT (List τ) (Except ε) β) (fun _ => []) (· = b) where
  read_write a rest ha := by
    subst ha
    rfl
  write_read input a rest h := by
    cases h
    exact ⟨rfl, rfl⟩

theorem Inverts.times (h : Inverts r w valid) (n : Nat) :
    Inverts (times r n) (List.flatMap w) fun l => l.length = n ∧ ∀ a ∈ l, valid a := by
  apply inverts_of_run
  induction n with
  | zero =>
    intro input l rest
    rw [Reader.times, run_pure_eq_ok]
    cases l <;> simp
  | succ n ih =>
    intro input l rest
    rw [Reader.times]
    simp only [run_bind_eq_ok, h.run_eq_ok, ih, run_pure_eq_ok]
    constructor
    · rintro ⟨a, _, ⟨ha, rfl⟩, l, _, ⟨⟨hlen, hl⟩, rfl⟩, rfl, rfl⟩
      refine ⟨⟨by simp [hlen], ?_⟩, by simp⟩
      exact forall_mem_cons.2 ⟨ha, hl⟩
    · rintro ⟨⟨hlen, hl⟩, rfl⟩
      cases l with
      | nil => cases hlen
      | cons a l =>
        obtain ⟨ha, hl⟩ := forall_mem_cons.1 hl
        refine ⟨a, _, ⟨ha, ?_⟩, l, rest, ⟨⟨by simpa using hlen, hl⟩, rfl⟩, rfl, rfl⟩
        rw [flatMap_cons, append_assoc]

/-- A value read first is one part of the value the whole reader answers. -/
theorem Inverts.bind {k : α → StateT (List τ) (Except ε) β} {w' : β → List τ} {valid' : β → Prop}
    (part : β → α) (hr : Inverts r w valid) (hpart : ∀ b, valid' b → valid (part b))
    (hk : ∀ a, valid a → Inverts (k a) w' (fun b => valid' b ∧ part b = a)) :
    Inverts (r >>= k) (fun b => w (part b) ++ w' b) valid' where
  read_write b rest hb := by
    show ((r.run (w (part b) ++ w' b ++ rest)).bind fun p => (k p.1).run p.2) = _
    rw [append_assoc, hr.read_write _ _ (hpart b hb)]
    exact (hk _ (hpart b hb)).read_write b rest ⟨hb, rfl⟩
  write_read input b rest h := by
    have hbind : ((r.run input).bind fun p => (k p.1).run p.2) = .ok (b, rest) := h
    cases hfirst : r.run input with
    | error e =>
      rw [hfirst] at hbind
      cases hbind
    | ok p =>
      rw [hfirst] at hbind
      obtain ⟨a, middle⟩ := p
      obtain ⟨ha, rfl⟩ := hr.write_read _ _ _ hfirst
      obtain ⟨⟨hb, rfl⟩, rfl⟩ := (hk a ha).write_read _ _ _ hbind
      exact ⟨hb, (append_assoc _ _ _).symm⟩

theorem Inverts.congr {valid' : α → Prop} (h : Inverts r w valid)
    (hvalid : ∀ a, valid' a ↔ valid a) : Inverts r w valid' := by
  have heq : valid' = valid := funext fun a => propext (hvalid a)
  rwa [heq]

/-! ## Two readers of one format -/

section Mirrors

variable {ε' α' β' : Type}

/-- The two readers accept the same tokens and answer related values. -/
structure Mirrors (R : α → β → Prop) (r : StateT (List τ) (Except ε) α)
    (r' : StateT (List τ) (Except ε') β) : Prop where
  forth : ∀ input a rest, r.run input = .ok (a, rest) → ∃ b, R a b ∧ r'.run input = .ok (b, rest)
  back : ∀ input b rest, r'.run input = .ok (b, rest) → ∃ a, R a b ∧ r.run input = .ok (a, rest)

variable {R : α → β → Prop} {r : StateT (List τ) (Except ε) α} {r' : StateT (List τ) (Except ε') β}

variable {b : β} {S : β → β' → Prop} {k : α → StateT (List τ) (Except ε) β}
  {k' : α' → StateT (List τ) (Except ε') β'}

theorem mirrors_pure {a : α} (h : R a b) :
    Mirrors R (pure a : StateT (List τ) (Except ε) α)
      (pure b : StateT (List τ) (Except ε') β) where
  forth input a' rest hrun := by
    obtain ⟨rfl, rfl⟩ := run_pure_eq_ok.1 hrun
    exact ⟨b, h, rfl⟩
  back input b' rest hrun := by
    obtain ⟨rfl, rfl⟩ := run_pure_eq_ok.1 hrun
    exact ⟨a, h, rfl⟩

theorem Mirrors.bind {R : α → α' → Prop} {r' : StateT (List τ) (Except ε') α'}
    (h : Mirrors R r r') (hk : ∀ a a', R a a' → Mirrors S (k a) (k' a')) :
    Mirrors S (r >>= k) (r' >>= k') where
  forth input b rest hrun := by
    obtain ⟨a, middle, hr, hb⟩ := run_bind_eq_ok.1 hrun
    obtain ⟨a', ha, hr'⟩ := h.forth input a middle hr
    obtain ⟨b', hb', hrun'⟩ := (hk a a' ha).forth middle b rest hb
    exact ⟨b', hb', run_bind_eq_ok.2 ⟨a', middle, hr', hrun'⟩⟩
  back input b' rest hrun := by
    obtain ⟨a', middle, hr', hb'⟩ := run_bind_eq_ok.1 hrun
    obtain ⟨a, ha, hr⟩ := h.back input a' middle hr'
    obtain ⟨b, hb, hrun'⟩ := (hk a a' ha).back middle b' rest hb'
    exact ⟨b, hb, run_bind_eq_ok.2 ⟨a, middle, hr, hrun'⟩⟩

theorem Mirrors.bind_eq {f : α → α'} {r' : StateT (List τ) (Except ε') α'}
    (h : Mirrors (fun a a' => a' = f a) r r') (hk : ∀ a, Mirrors S (k a) (k' (f a))) :
    Mirrors S (r >>= k) (r' >>= k') :=
  h.bind fun a _ ha => ha ▸ hk a

theorem mirrors_take {missing : ε} {missing' : ε'} {n : Nat} {f : List τ → α} {g : List τ → β}
    (h : ∀ l, l.length = n → R (f l) (g l)) :
    Mirrors R (f <$> take missing n) (g <$> take missing' n) where
  forth input a rest hrun := by
    obtain ⟨l, hl, rfl⟩ := run_map_eq_ok.1 hrun
    exact ⟨g l, h l (take_eq_ok.1 hl).1, run_map_eq_ok.2 ⟨l, take_eq_ok.2 (take_eq_ok.1 hl), rfl⟩⟩
  back input b rest hrun := by
    obtain ⟨l, hl, rfl⟩ := run_map_eq_ok.1 hrun
    exact ⟨f l, h l (take_eq_ok.1 hl).1, run_map_eq_ok.2 ⟨l, take_eq_ok.2 (take_eq_ok.1 hl), rfl⟩⟩

theorem mirrors_take_self (missing : ε) (missing' : ε') (n : Nat) :
    Mirrors (fun l l' : List τ => l' = l) (take missing n) (take missing' n) where
  forth _ l _ hrun := ⟨l, rfl, take_eq_ok.2 (take_eq_ok.1 hrun)⟩
  back _ l _ hrun := ⟨l, rfl, take_eq_ok.2 (take_eq_ok.1 hrun)⟩

theorem mirrors_lift {x : Except ε α} {y : Except ε' β}
    (hforth : ∀ a, x = .ok a → ∃ b, R a b ∧ y = .ok b)
    (hback : ∀ b, y = .ok b → ∃ a, R a b ∧ x = .ok a) :
    Mirrors R (liftM x : StateT (List τ) (Except ε) α)
      (liftM y : StateT (List τ) (Except ε') β) where
  forth input a rest hrun := by
    obtain ⟨hx, rfl⟩ := run_lift_eq_ok.1 hrun
    obtain ⟨b, hb, hy⟩ := hforth a hx
    exact ⟨b, hb, run_lift_eq_ok.2 ⟨hy, rfl⟩⟩
  back input b rest hrun := by
    obtain ⟨hy, rfl⟩ := run_lift_eq_ok.1 hrun
    obtain ⟨a, ha, hx⟩ := hback b hy
    exact ⟨a, ha, run_lift_eq_ok.2 ⟨hx, rfl⟩⟩

theorem Mirrors.mapError_left (h : Mirrors R r r') (f : ε → ε) : Mirrors R (mapError f r) r' where
  forth input a rest hrun := h.forth input a rest (run_mapError_eq_ok.1 hrun)
  back input b rest hrun := by
    obtain ⟨a, ha, hrun'⟩ := h.back input b rest hrun
    exact ⟨a, ha, run_mapError_eq_ok.2 hrun'⟩

theorem Mirrors.mapError_right (h : Mirrors R r r') (f : ε' → ε') :
    Mirrors R r (mapError f r') where
  forth input a rest hrun := by
    obtain ⟨b, hb, hrun'⟩ := h.forth input a rest hrun
    exact ⟨b, hb, run_mapError_eq_ok.2 hrun'⟩
  back input b rest hrun := h.back input b rest (run_mapError_eq_ok.1 hrun)

/-- Where the value of the one reader determines that of the other, the runs of the second are
those of the first. -/
theorem Mirrors.run_eq_ok (h : Mirrors R r r') (hR : ∀ a b b', R a b → R a b' → b = b')
    {input rest : List τ} :
    r'.run input = .ok (b, rest) ↔ ∃ a, r.run input = .ok (a, rest) ∧ R a b := by
  constructor
  · intro hrun
    obtain ⟨a, ha, hrun'⟩ := h.back input b rest hrun
    exact ⟨a, hrun', ha⟩
  · rintro ⟨a, hrun, hb⟩
    obtain ⟨b', hb', hrun'⟩ := h.forth input a rest hrun
    rwa [hR a b b' hb hb']

end Mirrors

end Reader
