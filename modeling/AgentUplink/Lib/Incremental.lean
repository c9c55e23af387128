/-
Incremental readers: input arrives piece by piece.

A reader takes one piece of input at a time. Each piece may make it emit some
outputs and either moves it to its next state or stops it with an error, and
what it emitted before the error stays emitted. `run` feeds a list of pieces.

Feeding is compositional (`run_append`), so a reader of symbols lifts to a
reader of chunks, and `run_run` says that how a stream was cut into chunks does
not matter. `run_related` compares two readers of the same input one piece at a
time.
-/
import Mathlib

namespace Incremental

open List

variable {α β ω ε σ τ : Type}

/-- What reading some input came to: the outputs in order, and the state to read
on from or the error that ended the reading. -/
@[ext] structure Outcome (ω ε σ : Type) where
  out : List ω
  result : Except ε σ

namespace Outcome

/-- Nothing is emitted and reading goes on from `s`. -/
def quiet (s : σ) : Outcome ω ε σ := ⟨[], .ok s⟩

/-- Read on from the state reached, unless an error was met. -/
def andThen (o : Outcome ω ε σ) (f : σ → Outcome ω ε τ) : Outcome ω ε τ :=
  match o.result with
  | .ok s => ⟨o.out ++ (f s).out, (f s).result⟩
  | .error e => ⟨o.out, .error e⟩

/-- The outcome of one call of a method, with the outputs its value stands for. -/
def ofCall (emit : α → List ω) : EStateM.Result ε σ α → Outcome ω ε σ
  | .ok a s => ⟨emit a, .ok s⟩
  | .error e _ => ⟨[], .error e⟩

/-- Keep only some of the outputs, in another form. -/
def collect {ω' : Type} (f : ω → Option ω') (o : Outcome ω ε σ) : Outcome ω' ε σ :=
  ⟨o.out.filterMap f, o.result⟩

/-- Each output stands for some others. -/
def expand {ω' : Type} (f : ω → List ω') (o : Outcome ω ε σ) : Outcome ω' ε σ :=
  ⟨o.out.flatMap f, o.result⟩

@[simp] theorem andThen_ok (out : List ω) (s : σ) (f : σ → Outcome ω ε τ) :
    (⟨out, .ok s⟩ : Outcome ω ε σ).andThen f = ⟨out ++ (f s).out, (f s).result⟩ := rfl

@[simp] theorem andThen_error (out : List ω) (e : ε) (f : σ → Outcome ω ε τ) :
    (⟨out, .error e⟩ : Outcome ω ε σ).andThen f = ⟨out, .error e⟩ := rfl

@[simp] theorem quiet_andThen (s : σ) (f : σ → Outcome ω ε τ) :
    (quiet s : Outcome ω ε σ).andThen f = f s := by
  simp [quiet]

@[simp] theorem andThen_quiet (o : Outcome ω ε σ) : o.andThen quiet = o := by
  obtain ⟨out, result⟩ := o
  cases result <;> simp [quiet]

theorem andThen_assoc {υ : Type} (o : Outcome ω ε σ) (f : σ → Outcome ω ε τ)
    (g : τ → Outcome ω ε υ) : (o.andThen f).andThen g = o.andThen fun s => (f s).andThen g := by
  obtain ⟨out, result⟩ := o
  cases result with
  | error e => simp
  | ok s => cases hf : (f s).result <;> simp [andThen, hf]

variable {o : Outcome ω ε σ} {out : List ω} {R : σ → τ → Prop} {o' : Outcome ω ε τ}

theorem andThen_eq_ok {f : σ → Outcome ω ε τ} {t : τ} :
    o.andThen f = ⟨out, .ok t⟩ ↔
      ∃ first s last, o = ⟨first, .ok s⟩ ∧ f s = ⟨last, .ok t⟩ ∧ out = first ++ last := by
  obtain ⟨first, result⟩ := o
  cases result with
  | error e => simp
  | ok s =>
    constructor
    · intro h
      simp only [andThen_ok, mk.injEq] at h
      exact ⟨first, s, (f s).out, rfl, by rw [← h.2], h.1.symm⟩
    · rintro ⟨_, _, _, ho, hs, rfl⟩
      cases ho
      simp [hs]

theorem collect_andThen {ω' : Type} (f : ω → Option ω') (o : Outcome ω ε σ)
    (g : σ → Outcome ω ε τ) :
    (o.andThen g).collect f = (o.collect f).andThen fun s => (g s).collect f := by
  obtain ⟨out, result⟩ := o
  cases result <;> simp [collect]

theorem expand_andThen {ω' : Type} (f : ω → List ω') (o : Outcome ω ε σ) (g : σ → Outcome ω ε τ) :
    (o.andThen g).expand f = (o.expand f).andThen fun s => (g s).expand f := by
  obtain ⟨out, result⟩ := o
  cases result <;> simp [expand]

/-- Two outcomes that emitted the same and ended alike: in related states, or
with the same error. -/
inductive Related (R : σ → τ → Prop) : Outcome ω ε σ → Outcome ω ε τ → Prop
  | ok {out : List ω} {s : σ} {t : τ} (h : R s t) : Related R ⟨out, .ok s⟩ ⟨out, .ok t⟩
  | error {out : List ω} {e : ε} : Related R ⟨out, .error e⟩ ⟨out, .error e⟩

theorem Related.error_iff (h : Related R o o') (e : ε) :
    o.result = .error e ↔ o'.result = .error e := by
  cases h <;> simp

theorem Related.of_ok {s : σ} (h : Related R ⟨out, .ok s⟩ o') : ∃ t, o' = ⟨out, .ok t⟩ ∧ R s t := by
  cases h with
  | ok h => exact ⟨_, rfl, h⟩

theorem Related.to_ok {t : τ} (h : Related R o ⟨out, .ok t⟩) : ∃ s, o = ⟨out, .ok s⟩ ∧ R s t := by
  cases h with
  | ok h => exact ⟨_, rfl, h⟩

theorem Related.andThen {σ' τ' : Type} {S : σ' → τ' → Prop} {f : σ → Outcome ω ε σ'}
    {f' : τ → Outcome ω ε τ'} (h : Related R o o') (hf : ∀ s t, R s t → Related S (f s) (f' t)) :
    Related S (o.andThen f) (o'.andThen f') := by
  cases h with
  | error => exact .error
  | @ok out s t hR =>
    have hst := hf s t hR
    simp only [andThen_ok]
    generalize f s = r, f' t = r' at hst
    cases hst with
    | ok hS => exact .ok hS
    | error => exact .error

end Outcome

open Outcome

def run (step : σ → β → Outcome ω ε σ) : σ → List β → Outcome ω ε σ
  | s, [] => quiet s
  | s, b :: bs => (step s b).andThen fun t => run step t bs

variable {step : σ → β → Outcome ω ε σ}

@[simp] theorem run_nil (s : σ) : run step s [] = quiet s := rfl

theorem run_cons (s : σ) (b : β) (bs : List β) :
    run step s (b :: bs) = (step s b).andThen fun t => run step t bs := rfl

@[simp] theorem run_singleton (s : σ) (b : β) : run step s [b] = step s b :=
  andThen_quiet (step s b)

theorem run_append (s : σ) (xs ys : List β) :
    run step s (xs ++ ys) = (run step s xs).andThen fun t => run step t ys := by
  induction xs generalizing s with
  | nil => simp
  | cons x xs ih => simp only [cons_append, run_cons, ih, andThen_assoc]

/-- A stream reads the same however it was cut. -/
theorem run_run (s : σ) (chunks : List (List β)) :
    run (run step) s chunks = run step s chunks.flatten := by
  induction chunks generalizing s with
  | nil => rfl
  | cons chunk chunks ih => simp only [run_cons, flatten_cons, run_append, ih]

theorem run_collect {ω' : Type} (f : ω → Option ω') (s : σ) (bs : List β) :
    (run step s bs).collect f = run (fun s b => (step s b).collect f) s bs := by
  induction bs generalizing s with
  | nil => rfl
  | cons b bs ih => simp only [run_cons, collect_andThen, ih]

variable {s t : σ} {bs : List β} {out : List ω}

theorem run_keeps {P : σ → Prop} (hstep : ∀ s b out t, P s → step s b = ⟨out, .ok t⟩ → P t)
    (hs : P s) (h : run step s bs = ⟨out, .ok t⟩) : P t := by
  induction bs generalizing s out with
  | nil =>
    cases h
    exact hs
  | cons b bs ih =>
    obtain ⟨first, u, last, hb, hrest, rfl⟩ := andThen_eq_ok.1 h
    exact ih (hstep s b first u hs hb) hrest

/-! ## Filling a buffer

A reader that collects `n` pieces before it acts. -/

section Fill

variable {f : List β → σ} {n : Nat} {g : List β → Outcome ω ε σ}

section

variable (hmore : ∀ buf b, buf.length + 1 < n → step (f buf) b = quiet (f (buf ++ [b])))
include hmore

theorem run_fill_short {buf bs : List β} (h : buf.length + bs.length < n) :
    run step (f buf) bs = quiet (f (buf ++ bs)) := by
  induction bs generalizing buf with
  | nil => simp
  | cons b bs ih =>
    rw [length_cons] at h
    rw [run_cons, hmore buf b (by omega), quiet_andThen, ih (by simp; omega)]
    simp

theorem run_fill_full (hfull : ∀ buf b, buf.length + 1 = n → step (f buf) b = g (buf ++ [b]))
    {buf bs : List β} (hbuf : buf.length < n) (h : buf.length + bs.length = n) :
    run step (f buf) bs = g (buf ++ bs) := by
  obtain ⟨init, b, rfl⟩ : ∃ init b, bs = init ++ [b] := by
    refine ⟨_, _, (dropLast_concat_getLast (?_ : bs ≠ [])).symm⟩
    intro hnil
    rw [hnil, length_nil] at h
    omega
  rw [length_append, length_singleton] at h
  rw [run_append, run_fill_short hmore (by omega), quiet_andThen, run_singleton,
    hfull _ b (by simp; omega), append_assoc]

end

end Fill

/-- A reader that accepts less, but nothing otherwise, may be replaced. -/
theorem run_of_step_ok {step' : σ → β → Outcome ω ε σ}
    (hstep : ∀ s b out t, step s b = ⟨out, .ok t⟩ → step' s b = ⟨out, .ok t⟩)
    (h : run step s bs = ⟨out, .ok t⟩) : run step' s bs = ⟨out, .ok t⟩ := by
  induction bs generalizing s out with
  | nil => exact h
  | cons b bs ih =>
    obtain ⟨first, u, last, hb, hrest, rfl⟩ := andThen_eq_ok.1 h
    rw [run_cons, hstep s b first u hb, andThen_ok, ih hrest]

/-- Readers that agree piece by piece agree on the whole input. -/
theorem run_related {step' : τ → β → Outcome ω ε τ} {R : σ → τ → Prop}
    (hstep : ∀ s t b, R s t → Related R (step s b) (step' t b)) {t : τ} (h : R s t) (bs : List β) :
    Related R (run step s bs) (run step' t bs) := by
  induction bs generalizing s t with
  | nil => exact .ok h
  | cons b bs ih => exact (hstep s t b h).andThen fun _ _ hR => ih hR

end Incremental
