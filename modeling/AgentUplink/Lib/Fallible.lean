import Mathlib

/-!
# Fallible computations over a mutable state

`EStateM ε σ α` is a method that takes its state by mutable reference and
returns a result: a failure keeps the state the method had reached when it
failed, so a half-applied update stays visible.

The helpers are the ways such a method leaves early. The first group of lemmas
reads a successful run off a method's text; the second shows that a failing run
has changed nothing, from which steps only read and which cannot fail.
-/

namespace Fallible

variable {ε σ τ α β : Type}

def failIf (c : Prop) [Decidable c] (e : ε) : EStateM ε σ Unit :=
  if c then throw e else pure ()

def orFail (o : Option α) (e : ε) : EStateM ε σ α :=
  match o with
  | some a => pure a
  | none => throw e

/-- A check that reads nothing from the state. -/
def check (r : Except ε α) : EStateM ε σ α :=
  match r with
  | .ok a => pure a
  | .error e => throw e

variable {x : EStateM ε σ α} {r : Except ε α} {c : Prop} {e : ε} {a b : α} {f : α → EStateM ε σ β}

theorem ite_error_ok [Decidable c] :
    (if c then .error e else .ok a : Except ε α) = .ok b ↔ ¬ c ∧ a = b := by
  by_cases h : c <;> simp [h]

theorem ite_error_eq_ok [Decidable c] : (if c then .error e else r) = .ok b ↔ ¬ c ∧ r = .ok b := by
  by_cases h : c <;> simp [h]

theorem except_bind_eq_ok {f : α → Except ε β} {b : β} :
    (r >>= f) = .ok b ↔ ∃ a, r = .ok a ∧ f a = .ok b := by
  cases r with
  | error e | ok a => simp [bind, Except.bind]

theorem except_ok_bind (a : α) (f : α → Except ε β) : (Except.ok a >>= f) = f a := rfl

theorem mapError_eq_ok {δ : Type} {f : ε → δ} : r.mapError f = .ok a ↔ r = .ok a := by
  cases r <;> simp [Except.mapError]

theorem except_map_eq_ok {f : α → β} {b : β} : r.map f = .ok b ↔ ∃ a, r = .ok a ∧ f a = b := by
  cases r with
  | error e | ok a => simp [Except.map]

theorem forM_ok {ι : Type} {f : ι → Except ε PUnit} {l : List ι} :
    l.forM f = .ok ⟨⟩ ↔ ∀ i ∈ l, f i = .ok ⟨⟩ := by
  induction l with
  | nil => simp [List.forM, pure, Except.pure]
  | cons i l ih =>
    have hcons : (i :: l).forM f = (f i).bind fun _ => l.forM f := rfl
    rw [hcons]
    cases hi : f i with
    | error e => simp [Except.bind, hi]
    | ok u =>
      rw [List.forall_mem_cons, ← ih]
      simp [Except.bind, hi]

/-- The errors a computation can give. -/
@[mk_iff] class Errs (p : ε → Prop) (r : Except ε α) : Prop where
  of_error : ∀ e, r = .error e → p e

section Errs

variable {p : ε → Prop} {r' : Except ε α}

@[simp] theorem errs_ok : Errs p (.ok a) := by simp [errs_iff]

@[simp] theorem errs_error : Errs p (.error e : Except ε α) ↔ p e := by simp [errs_iff]

@[simp] theorem errs_ite [Decidable c] :
    Errs p (if c then r else r') ↔ (c → Errs p r) ∧ (¬ c → Errs p r') := by
  by_cases h : c <;> simp [h]

@[simp] theorem errs_bind {f : α → Except ε β} :
    Errs p (r >>= f) ↔ Errs p r ∧ ∀ a, r = .ok a → Errs p (f a) := by
  cases r with
  | error e | ok a => simp [bind, Except.bind]

@[simp] theorem errs_map {f : α → β} : Errs p (f <$> r) ↔ Errs p r := by
  cases r with
  | error e | ok a => simp [Functor.map, Except.map]

end Errs

/-- Both computations succeed, with related values, or both fail. -/
inductive Alike {δ : Type} (R : α → β → Prop) : Except ε α → Except δ β → Prop
  | ok {a : α} {b : β} (h : R a b) : Alike R (.ok a) (.ok b)
  | error (e : ε) (e' : δ) : Alike R (.error e) (.error e')

section Alike

variable {δ γ ζ : Type} {R : α → β → Prop} {x x' : Except ε α} {y y' : Except δ β}

theorem Alike.bind {S : γ → ζ → Prop} {f : α → Except ε γ} {g : β → Except δ ζ}
    (h : Alike R x y) (hf : ∀ a b, R a b → Alike S (f a) (g b)) :
    Alike S (x >>= f) (y >>= g) := by
  cases h with
  | ok h => exact hf _ _ h
  | error e e' => exact .error e e'

theorem Alike.ite {p q : Prop} [Decidable p] [Decidable q] (hpq : p ↔ q) (h : p → Alike R x y)
    (h' : ¬ p → Alike R x' y') : Alike R (if p then x else x') (if q then y else y') := by
  by_cases hp : p
  · rw [if_pos hp, if_pos (hpq.1 hp)]
    exact h hp
  · rw [if_neg hp, if_neg fun hq => hp (hpq.2 hq)]
    exact h' hp

theorem Alike.map_right {S : α → γ → Prop} {g : β → γ} (h : Alike R x y)
    (hS : ∀ a b, R a b → S a (g b)) : Alike S x (y >>= fun b => .ok (g b)) := by
  cases h with
  | ok h => exact .ok (hS _ _ h)
  | error e e' => exact .error e e'

theorem Alike.map_left {S : γ → β → Prop} {f : α → γ} (h : Alike R x y)
    (hS : ∀ a b, R a b → S (f a) b) : Alike S (x >>= fun a => .ok (f a)) y := by
  cases h with
  | ok h => exact .ok (hS _ _ h)
  | error e e' => exact .error e e'

theorem Alike.mono {S : α → β → Prop} (h : Alike R x y) (hS : ∀ a b, R a b → S a b) :
    Alike S x y := by
  cases h with
  | ok h => exact .ok (hS _ _ h)
  | error e e' => exact .error e e'

theorem Alike.of_ok (h : ∀ a, x = .ok a → ∃ b, y = .ok b ∧ R a b)
    (h' : ∀ b, y = .ok b → ∃ a, x = .ok a) : Alike R x y := by
  cases x with
  | ok a =>
    obtain ⟨b, rfl, hR⟩ := h a rfl
    exact .ok hR
  | error e =>
    cases y with
    | error e' => exact .error e e'
    | ok b => cases (h' b rfl).choose_spec

theorem Alike.ok_left {a : α} (h : Alike R x y) (hx : x = .ok a) : ∃ b, y = .ok b ∧ R a b := by
  cases h with
  | ok h =>
    cases hx
    exact ⟨_, rfl, h⟩
  | error => cases hx

theorem Alike.ok_right {b : β} (h : Alike R x y) (hy : y = .ok b) : ∃ a, x = .ok a ∧ R a b := by
  cases h with
  | ok h =>
    cases hy
    exact ⟨_, rfl, h⟩
  | error => cases hy

end Alike

/-- Run a computation on one component of a larger state. -/
def zoom (get : σ → τ) (put : σ → τ → σ) (x : EStateM ε τ α) : EStateM ε σ α := fun s =>
  match x.run (get s) with
  | .ok a t => .ok a (put s t)
  | .error e t => .error e (put s t)

/-- The state a computation leaves behind, whether or not it succeeded. -/
def stateOf : EStateM.Result ε σ α → σ
  | .ok _ s => s
  | .error _ s => s

@[simp] theorem stateOf_ok (a : α) (s : σ) :
    stateOf (EStateM.Result.ok a s : EStateM.Result ε σ α) = s := rfl

@[simp] theorem stateOf_error (e : ε) (s : σ) :
    stateOf (EStateM.Result.error e s : EStateM.Result ε σ α) = s := rfl

/-- The error a computation ended with, if it failed. -/
def errorOf : EStateM.Result ε σ α → Option ε
  | .ok _ _ => none
  | .error e _ => some e

@[simp] theorem errorOf_ok (a : α) (s : σ) :
    errorOf (EStateM.Result.ok a s : EStateM.Result ε σ α) = none := rfl

@[simp] theorem errorOf_error (e : ε) (s : σ) :
    errorOf (EStateM.Result.error e s : EStateM.Result ε σ α) = some e := rfl

theorem run_zoom (get : σ → τ) (put : σ → τ → σ) (x : EStateM ε τ α) (s : σ) :
    (zoom get put x).run s =
      match x.run (get s) with
      | .ok a u => .ok a (put s u)
      | .error e u => .error e (put s u) := rfl

/-! ## Symbolic execution

Rewriting with these runs a method's text from a known state. -/

section Execution

variable (s t : σ) (a : α) (e : ε)

theorem run_get_bind (f : σ → EStateM ε σ α) : (get >>= f).run s = (f s).run s := rfl

theorem run_set_bind (f : PUnit → EStateM ε σ α) : (set t >>= f).run s = (f ⟨⟩).run t := rfl

theorem run_modify_bind (g : σ → σ) (f : PUnit → EStateM ε σ α) :
    (modify g >>= f).run s = (f ⟨⟩).run (g s) := rfl

theorem run_check_ok_bind (f : α → EStateM ε σ β) : (check (.ok a) >>= f).run s = (f a).run s := rfl

theorem run_check_error_bind (f : α → EStateM ε σ β) :
    (check (.error e) >>= f).run s = .error e s := rfl

theorem run_pure (b : β) : (pure b : EStateM ε σ β).run s = .ok b s := rfl

end Execution

/-! ## Successful runs

Each lemma says when a step succeeds and what it leaves behind, so that rewriting
with all of them reads a successful run off a method's text. -/

section Success

variable {s t : σ} {a b : α} {e : ε}

variable {x : EStateM ε σ β} {f : β → EStateM ε σ α} {u : σ}

theorem bind_ok : (x >>= f).run s = .ok a t ↔ ∃ b u, x.run s = .ok b u ∧ (f b).run u = .ok a t := by
  rw [EStateM.run_bind]
  cases hx : x.run s with
  | error e u => simp
  | ok b u =>
    constructor
    · exact fun h => ⟨b, u, rfl, h⟩
    · rintro ⟨b', u', hb, h⟩
      cases hb
      exact h

theorem run_bind_of_ok {b : β} (h : x.run s = .ok b u) : (x >>= f).run s = (f b).run u := by
  rw [EStateM.run_bind, h]

theorem run_bind_of_error (h : x.run s = .error e t) : (x >>= f).run s = .error e t := by
  rw [EStateM.run_bind, h]

theorem pure_ok : (pure b : EStateM ε σ α).run s = .ok a t ↔ b = a ∧ s = t := by
  simp

theorem get_ok : (get : EStateM ε σ σ).run s = .ok u t ↔ s = u ∧ s = t := by
  simp

theorem modify_ok {g : σ → σ} {u : PUnit} :
    (modify g : EStateM ε σ PUnit).run s = .ok u t ↔ g s = t := by
  simp

theorem failIf_ok {c : Prop} [Decidable c] {u : Unit} :
    (failIf c e : EStateM ε σ Unit).run s = .ok u t ↔ ¬ c ∧ s = t := by
  unfold failIf
  by_cases h : c
  · simp only [h, if_true, not_true_eq_false, false_and, iff_false]
    exact fun hrun => nomatch hrun
  · simp [h]

theorem orFail_ok {o : Option α} :
    (orFail o e : EStateM ε σ α).run s = .ok a t ↔ o = some a ∧ s = t := by
  cases o with
  | none =>
    simp only [reduceCtorEq, false_and, iff_false]
    exact fun hrun => nomatch hrun
  | some b => simp [orFail]

theorem check_ok {r : Except ε α} :
    (check r : EStateM ε σ α).run s = .ok a t ↔ r = .ok a ∧ s = t := by
  cases r with
  | error e' =>
    simp only [reduceCtorEq, false_and, iff_false]
    exact fun hrun => nomatch hrun
  | ok b => simp [check]

theorem zoom_ok {get : σ → τ} {put : σ → τ → σ} {x : EStateM ε τ α} :
    (zoom get put x).run s = .ok a t ↔ ∃ u, x.run (get s) = .ok a u ∧ put s u = t := by
  rw [run_zoom]
  cases x.run (get s) with
  | error e u => simp
  | ok b u => simp [and_assoc]

end Success

/-! ## Failures that change nothing -/

/-- The computation leaves the state alone, whether or not it succeeds. -/
def Reads (x : EStateM ε σ α) : Prop := ∀ s, stateOf (x.run s) = s

/-- The computation cannot fail. -/
def Total (x : EStateM ε σ α) : Prop := ∀ s, ∃ a t, x.run s = .ok a t

/-- A failure leaves the state as it was before the call. -/
def Atomic (x : EStateM ε σ α) : Prop := ∀ s e t, x.run s = .error e t → t = s

theorem reads_get : Reads (get : EStateM ε σ σ) := fun _ => rfl

theorem reads_pure (a : α) : Reads (pure a : EStateM ε σ α) := fun _ => rfl

theorem reads_failIf (c : Prop) [Decidable c] (e : ε) : Reads (failIf c e : EStateM ε σ Unit) := by
  intro s
  unfold failIf
  by_cases h : c
  · rw [if_pos h]
    rfl
  · rw [if_neg h]
    rfl

theorem reads_orFail (o : Option α) (e : ε) : Reads (orFail o e : EStateM ε σ α) := by
  intro s
  cases o <;> rfl

theorem reads_check (r : Except ε α) : Reads (check r : EStateM ε σ α) := by
  intro s
  cases r <;> rfl

theorem total_modify (g : σ → σ) : Total (modify g : EStateM ε σ PUnit) := fun s =>
  ⟨_, g s, rfl⟩

theorem total_check (a : α) : Total (check (.ok a : Except ε α) : EStateM ε σ α) := fun s =>
  ⟨a, s, rfl⟩

theorem Total.bind (hx : Total x) (hf : ∀ a, Total (f a)) : Total (x >>= f) := by
  intro s
  obtain ⟨a, t, ha⟩ := hx s
  obtain ⟨b, u, hb⟩ := hf a t
  exact ⟨b, u, bind_ok.2 ⟨a, t, ha, hb⟩⟩

theorem Total.atomic (h : Total x) : Atomic x := by
  intro s e t hrun
  obtain ⟨a, u, hok⟩ := h s
  rw [hok] at hrun
  cases hrun

theorem Reads.atomic (h : Reads x) : Atomic x := by
  intro s e t hrun
  have := h s
  rw [hrun] at this
  exact this

theorem Reads.bind_atomic (hx : Reads x) (hf : ∀ a, Atomic (f a)) : Atomic (x >>= f) := by
  intro s e t hrun
  rw [EStateM.run_bind] at hrun
  have hs := hx s
  cases hxs : x.run s with
  | ok a u =>
    rw [hxs] at hrun hs
    cases hs
    exact hf a _ e t hrun
  | error e' u =>
    rw [hxs] at hrun hs
    cases hrun
    exact hs

theorem Atomic.ite [Decidable c] {y : EStateM ε σ α} (hx : Atomic x) (hy : Atomic y) :
    Atomic (if c then x else y) := by
  by_cases h : c <;> simp only [h, if_true, if_false] <;> assumption

theorem Atomic.zoom {get : σ → τ} {put : σ → τ → σ} {x : EStateM ε τ α}
    (hput : ∀ s, put s (get s) = s) (h : Atomic x) : Atomic (zoom get put x) := by
  intro s e t hrun
  rw [run_zoom] at hrun
  cases hx : x.run (get s) with
  | ok a u =>
    rw [hx] at hrun
    cases hrun
  | error e' u =>
    rw [hx] at hrun
    cases hrun
    rw [h _ _ _ hx, hput]

end Fallible
