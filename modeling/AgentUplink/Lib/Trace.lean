/-
Runs of a deterministic machine and what happens along them.

`next` gives the state after an input. A run feeds a list of inputs; `events`
lists what an observer notes about each step, in order. Invariants may speak of
the state alone or of the events noted so far as well.
-/
import Mathlib

namespace Trace

open List

variable {ι σ ε : Type} (next : ι → σ → σ)

def run (s : σ) (inputs : List ι) : σ := inputs.foldl (fun s i => next i s) s

/-- What `note` sees of each step, together with the state the step starts from. -/
def events (note : ι → σ → Option ε) (s : σ) : List ι → List ε
  | [] => []
  | i :: inputs => (note i s).toList ++ events note (next i s) inputs

variable {next}

@[simp] theorem run_nil (s : σ) : run next s [] = s := rfl

@[simp] theorem run_cons (s : σ) (i : ι) (inputs : List ι) :
    run next s (i :: inputs) = run next (next i s) inputs := rfl

theorem run_append (s : σ) (before after : List ι) :
    run next s (before ++ after) = run next (run next s before) after := foldl_append

variable {note : ι → σ → Option ε} {s : σ} {inv : List ε → σ → Prop} {seen : List ε}

theorem events_append (s : σ) (before after : List ι) :
    events next note s (before ++ after) =
      events next note s before ++ events next note (run next s before) after := by
  induction before generalizing s with
  | nil => rfl
  | cons i before ih => simp [events, ih]

/-- A property of the state kept by every step is kept by every run. -/
theorem run_invariant {inv : σ → Prop} (hstep : ∀ i s, inv s → inv (next i s)) (h : inv s)
    (inputs : List ι) : inv (run next s inputs) := by
  induction inputs generalizing s with
  | nil => exact h
  | cons i inputs ih => exact ih (hstep i s h)

/-- A property of the events so far and the state, kept by every step. -/
theorem events_invariant
    (hstep : ∀ seen i s, inv seen s → inv (seen ++ (note i s).toList) (next i s)) (h : inv seen s)
    (inputs : List ι) : inv (seen ++ events next note s inputs) (run next s inputs) := by
  induction inputs generalizing seen s with
  | nil => simpa [events] using h
  | cons i inputs ih =>
    rw [events, ← append_assoc]
    exact ih (hstep seen i s h)

/-- A property kept by every step that does not reach `stop` holds wherever a run
stands that has not reached it. -/
theorem inv_before_stop {stop : σ → Prop}
    (hstep : ∀ seen i s, inv seen s →
      stop (next i s) ∨ inv (seen ++ (note i s).toList) (next i s)) (h : inv seen s)
    {inputs : List ι}
    (hinside : ∀ before, before <+: inputs → before ≠ [] → before ≠ inputs →
      ¬ stop (run next s before)) {before : List ι} (hbefore : before <+: inputs)
    (hne : before ≠ inputs) : inv (seen ++ events next note s before) (run next s before) := by
  induction before using List.reverseRecOn with
  | nil => simpa [events] using h
  | append_singleton before i ih =>
    have hshort : before <+: inputs := (prefix_append before [i]).trans hbefore
    have hlt : before ≠ inputs := by
      intro heq
      have hlength := hbefore.length_le
      rw [heq, length_append] at hlength
      exact absurd hlength (by simp)
    have hopen := hinside _ hbefore (by simp) hne
    rw [run_append, run_cons, run_nil] at hopen ⊢
    rw [events_append, events, events, append_nil, ← append_assoc]
    exact (hstep _ i _ (ih hshort hlt)).resolve_left hopen

/-! ## Machines that may stop

`next` answers `none` where the machine stops. A run is described by the inputs taken
so far, each with the state it was taken in, and the state the run has reached. -/

inductive Reach (next : ι → σ → Option σ) (s₀ : σ) : List (ι × σ) → σ → Prop
  | start : Reach next s₀ [] s₀
  | step {seen : List (ι × σ)} {s t : σ} {i : ι} : Reach next s₀ seen s → next i s = some t →
      Reach next s₀ (seen ++ [(i, s)]) t

section Stopping

variable {next : ι → σ → Option σ} {s₀ s t : σ} {seen : List (ι × σ)}

/-- What holds at the start and is kept by every step holds of every run. -/
theorem Reach.invariant (inv : List (ι × σ) → σ → Prop) (hstart : inv [] s₀)
    (hstep : ∀ seen s i t, Reach next s₀ seen s → inv seen s → next i s = some t →
      inv (seen ++ [(i, s)]) t) (h : Reach next s₀ seen s) : inv seen s := by
  induction h with
  | start => exact hstart
  | step hreach hnext ih => exact hstep _ _ _ _ hreach ih hnext

/-- The run that feeds a list of inputs, if the machine does not stop. -/
def replay (next : ι → σ → Option σ) (s : σ) : List ι → Option (List (ι × σ) × σ)
  | [] => some ([], s)
  | i :: inputs =>
    (next i s).bind fun t =>
      (replay next t inputs).map fun (seen, u) => ((i, s) :: seen, u)

theorem Reach.append {u : σ} {later : List (ι × σ)} (h : Reach next s₀ seen s)
    (hlater : Reach next s later u) : Reach next s₀ (seen ++ later) u := by
  induction hlater with
  | start => simpa using h
  | step _ hnext ih =>
    rw [← append_assoc]
    exact ih.step hnext

theorem reach_of_replay {inputs : List ι} (h : replay next s inputs = some (seen, t)) :
    Reach next s seen t := by
  induction inputs generalizing s seen with
  | nil =>
    cases h
    exact .start
  | cons i inputs ih =>
    simp only [replay, Option.bind_eq_some_iff, Option.map_eq_some_iff] at h
    obtain ⟨u, hnext, ⟨later, v⟩, hreplay, heq⟩ := h
    cases heq
    exact (Reach.step .start hnext).append (ih hreplay)

end Stopping

end Trace
