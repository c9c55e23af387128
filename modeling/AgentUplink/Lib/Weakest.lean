/-
Weakest preconditions of fallible computations.

`wp x s post fail` says that running `x` from `s` ends in `post` if it succeeds
and in `fail` if it fails. Both say what became of the state, so a method that
changes its state and then fails is described as well as one that succeeds.

One rule for each way of building a computation turns `wp` of a whole method
into a statement about its branches and the guards that lead to them.
-/
import AgentUplink.Lib.Fallible

namespace Fallible

variable {ε σ α β : Type}

def wp (x : EStateM ε σ α) (s : σ) (post : α → σ → Prop) (fail : ε → σ → Prop) : Prop :=
  match x.run s with
  | .ok a t => post a t
  | .error e t => fail e t

variable {s : σ} {post : α → σ → Prop} {fail : ε → σ → Prop}

/-! ## Reading a specification -/

variable {x : EStateM ε σ α} {t : σ}

theorem wp_of_ok {a : α} (h : wp x s post fail) (hrun : x.run s = .ok a t) : post a t := by
  unfold wp at h
  rwa [hrun] at h

theorem wp_of_error {e : ε} (h : wp x s post fail) (hrun : x.run s = .error e t) : fail e t := by
  unfold wp at h
  rwa [hrun] at h

theorem wp_stateOf {inv : σ → Prop} (h : wp x s (fun _ t => inv t) fun _ t => inv t) :
    inv (stateOf (x.run s)) := by
  unfold wp at h
  cases hrun : x.run s with
  | ok a t | error e t => rwa [hrun] at h

theorem wp_mono {post' : α → σ → Prop} {fail' : ε → σ → Prop} (h : wp x s post fail)
    (hpost : ∀ a t, post a t → post' a t) (hfail : ∀ e t, fail e t → fail' e t) :
    wp x s post' fail' := by
  unfold wp at h ⊢
  cases hrun : x.run s with
  | ok a t =>
    rw [hrun] at h
    exact hpost a t h
  | error e t =>
    rw [hrun] at h
    exact hfail e t h

/-! ## Rules -/

section Rules

@[simp] theorem wp_pure (a : α) : wp (pure a : EStateM ε σ α) s post fail ↔ post a s := Iff.rfl

@[simp] theorem wp_throw (e : ε) : wp (throw e : EStateM ε σ α) s post fail ↔ fail e s := Iff.rfl

@[simp] theorem wp_get {post : σ → σ → Prop} :
    wp (get : EStateM ε σ σ) s post fail ↔ post s s := Iff.rfl

@[simp] theorem wp_modify (g : σ → σ) {post : PUnit → σ → Prop} :
    wp (modify g : EStateM ε σ PUnit) s post fail ↔ post ⟨⟩ (g s) := Iff.rfl

@[simp] theorem wp_bind (x : EStateM ε σ β) (f : β → EStateM ε σ α) :
    wp (x >>= f) s post fail ↔ wp x s (fun b t => wp (f b) t post fail) fail := by
  unfold wp
  rw [EStateM.run_bind]
  cases x.run s <;> rfl

theorem wp_bind_trans {r : σ → σ → Prop} [IsTrans σ r] {f : α → EStateM ε σ β}
    (hx : wp x s (fun _ t => r s t) fun _ t => r s t)
    (hf : ∀ a t, wp (f a) t (fun _ u => r t u) fun _ u => r t u) :
    wp (x >>= f) s (fun _ t => r s t) fun _ t => r s t := by
  rw [wp_bind]
  refine wp_mono hx (fun a t ht => ?_) fun _ _ ht => ht
  exact wp_mono (hf a t) (fun _ u => IsTrans.trans s t u ht) fun _ u => IsTrans.trans s t u ht

theorem run_map (g : β → α) (x : EStateM ε σ β) :
    (g <$> x).run s = match x.run s with
      | .ok b t => .ok (g b) t
      | .error e t => .error e t := rfl

@[simp] theorem wp_map (g : β → α) (x : EStateM ε σ β) :
    wp (g <$> x) s post fail ↔ wp x s (fun b t => post (g b) t) fail := by
  unfold wp
  rw [run_map]
  cases x.run s <;> rfl

theorem wp_map_ok {g : α → β} {b : β} {p : σ → Prop} (h : wp x s (fun _ t => p t) fail)
    (hrun : (g <$> x).run s = .ok b t) : p t := by
  have hwp : wp (g <$> x) s (fun _ t => p t) fail := (wp_map g x).2 h
  exact wp_of_ok hwp hrun

@[simp] theorem wp_ite (c : Prop) [Decidable c] (x y : EStateM ε σ α) :
    wp (if c then x else y) s post fail ↔ (c → wp x s post fail) ∧ (¬ c → wp y s post fail) := by
  by_cases h : c <;> simp [h]

@[simp] theorem wp_failIf (c : Prop) [Decidable c] (e : ε) {post : Unit → σ → Prop} :
    wp (failIf c e : EStateM ε σ Unit) s post fail ↔ (c → fail e s) ∧ (¬ c → post () s) := by
  unfold failIf
  rw [wp_ite, wp_throw]
  rfl

@[simp] theorem wp_orFail (o : Option α) (e : ε) :
    wp (orFail o e : EStateM ε σ α) s post fail ↔
      (o = none → fail e s) ∧ ∀ a, o = some a → post a s := by
  cases o with
  | none | some a => simp [orFail]

@[simp] theorem wp_check (r : Except ε α) :
    wp (check r : EStateM ε σ α) s post fail ↔
      (∀ e, r = .error e → fail e s) ∧ ∀ a, r = .ok a → post a s := by
  cases r with
  | error e | ok a => simp [check]

@[simp] theorem wp_adaptExcept {ε' : Type} (g : ε → ε') (x : EStateM ε σ α) {fail : ε' → σ → Prop} :
    wp (x.adaptExcept g) s post fail ↔ wp x s post fun e t => fail (g e) t := by
  unfold wp EStateM.adaptExcept EStateM.run
  dsimp only
  cases x s <;> rfl

theorem wp_forM {ι : Type} {items : List ι} {f : ι → EStateM ε σ PUnit} {inv : σ → Prop}
    {fail : ε → σ → Prop} (hround : ∀ i ∈ items, ∀ s, inv s → wp (f i) s (fun _ t => inv t) fail)
    (h : inv s) : wp (items.forM f) s (fun _ t => inv t) fail := by
  induction items generalizing s with
  | nil => exact h
  | cons i items ih =>
    show wp (f i >>= fun _ => items.forM f) s _ _
    rw [wp_bind]
    refine wp_mono (hround i (List.mem_cons_self ..) s h) (fun _ t ht => ?_) fun _ _ hfail => hfail
    exact ih (fun j hj => hround j (List.mem_cons_of_mem i hj)) ht

end Rules

end Fallible
