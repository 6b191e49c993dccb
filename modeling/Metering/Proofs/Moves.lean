import Mathlib.Order.Defs.Unbundled
import Mathlib.Tactic.ByContra
import Mathlib.Tactic.Lemma
import Metering.System

/-!
# Where computations lead

A computation that may fail ends in a state in either case. `Moves R x` says that `x` leads from
every state to an `R`-related one; a reflexive and transitive relation is carried through a whole
program by `Moves.bind`, and `Moves.bind_of_comp` lets one step of it do more than the others.
Invariants and frame conditions are both relations of this kind.
-/

namespace Metering

variable {ε σ α β : Type}

/-- The state in which a computation ends, whether it fails or not. -/
def endOf : EStateM.Result ε σ α → σ
  | .ok _ s => s
  | .error _ s => s

lemma bind_of_ok {x : EStateM ε σ α} {s t : σ} {a : α} (hx : x s = .ok a t)
    (f : α → EStateM ε σ β) : (x >>= f) s = f a t := by
  change EStateM.bind x f s = f a t
  rw [EStateM.bind, hx]

lemma bind_of_error {x : EStateM ε σ α} {s t : σ} {e : ε} (hx : x s = .error e t)
    (f : α → EStateM ε σ β) : (x >>= f) s = .error e t := by
  change EStateM.bind x f s = .error e t
  rw [EStateM.bind, hx]

lemma bind_get (f : σ → EStateM ε σ α) (s : σ) : (get >>= f) s = f s s := rfl

lemma modify_ok (g : σ → σ) (s : σ) : (modify g : EStateM ε σ PUnit) s = .ok ⟨⟩ (g s) := rfl

lemma ok_of_bind_ok {x : EStateM ε σ α} {f : α → EStateM ε σ β} {s u : σ} {b : β}
    (h : (x >>= f) s = .ok b u) : ∃ a t, x s = .ok a t ∧ f a t = .ok b u := by
  cases hx : x s with
  | ok a t => exact ⟨a, t, rfl, (bind_of_ok hx f).symm.trans h⟩
  | error e t => exact absurd ((bind_of_error hx f).symm.trans h) (by simp)

lemma error_of_bind_error {x : EStateM ε σ α} {f : α → EStateM ε σ β} {s u : σ} {e : ε}
    (h : (x >>= f) s = .error e u) :
    x s = .error e u ∨ ∃ a t, x s = .ok a t ∧ f a t = .error e u := by
  cases hx : x s with
  | ok a t => exact Or.inr ⟨a, t, rfl, (bind_of_ok hx f).symm.trans h⟩
  | error e' t =>
    rw [bind_of_error hx] at h
    cases h
    exact Or.inl rfl

lemma tryCatch_of_ok {x : EStateM ε σ α} {s t : σ} {a : α} (hx : x s = .ok a t)
    (handle : ε → EStateM ε σ α) : tryCatch x handle s = .ok a t := by
  change EStateM.tryCatch x handle s = .ok a t
  simp only [EStateM.tryCatch, hx]

lemma tryCatch_of_error {x : EStateM ε σ α} {s t : σ} {e : ε} (hx : x s = .error e t)
    (handle : ε → EStateM ε σ α) : tryCatch x handle s = handle e t := by
  change EStateM.tryCatch x handle s = handle e t
  simp only [EStateM.tryCatch, hx]
  rfl

lemma ofExcept_ok {y : Except ε α} {s t : σ} {a : α}
    (h : (ofExcept y : EStateM ε σ α) s = .ok a t) : y = .ok a ∧ t = s := by
  cases y with
  | ok b =>
    cases h
    exact ⟨rfl, rfl⟩
  | error e => cases h

lemma ofExcept_error {y : Except ε α} {s t : σ} {e : ε}
    (h : (ofExcept y : EStateM ε σ α) s = .error e t) : y = .error e := by
  cases y with
  | ok a => cases h
  | error e' =>
    cases h
    rfl

/-- Every run of the computation, failing ones included, leads to a related state. -/
def Moves (R : σ → σ → Prop) (x : EStateM ε σ α) : Prop := ∀ s, R s (endOf (x s))

namespace Moves

variable {R S T : σ → σ → Prop} {x : EStateM ε σ α} {f : α → EStateM ε σ β}

lemma mono (hRS : ∀ s t, R s t → S s t) (hx : Moves R x) : Moves S x :=
  fun s => hRS s _ (hx s)

lemma of_ok (hx : Moves R x) {s t : σ} {a : α} (h : x s = .ok a t) : R s t := by
  have := hx s
  rwa [h] at this

lemma of_error (hx : Moves R x) {s t : σ} {e : ε} (h : x s = .error e t) : R s t := by
  have := hx s
  rwa [h] at this

/-- Two steps that move along different relations move along their composite. -/
lemma bind_of_comp (hRT : ∀ s t, R s t → T s t) (hRST : ∀ s t u, R s t → S t u → T s u)
    (hx : Moves R x) (hf : ∀ a, Moves S (f a)) : Moves T (x >>= f) := by
  intro s
  cases h : x s with
  | ok a t =>
    rw [bind_of_ok h]
    exact hRST s t _ (hx.of_ok h) (hf a t)
  | error e t =>
    rw [bind_of_error h]
    exact hRT s t (hx.of_error h)

section Preorder

variable [IsPreorder σ R]

lemma bind (hx : Moves R x) (hf : ∀ a, Moves R (f a)) : Moves R (x >>= f) :=
  bind_of_comp (fun _ _ h => h) (fun _ _ _ => IsTrans.trans _ _ _) hx hf

lemma pure (a : α) : Moves R (Pure.pure a : EStateM ε σ α) := fun s => Std.Refl.refl s

lemma throw (e : ε) : Moves R (MonadExcept.throw e : EStateM ε σ α) := fun s => Std.Refl.refl s

lemma get : Moves R (MonadState.get : EStateM ε σ σ) := fun s => Std.Refl.refl s

lemma ofExcept (y : Except ε α) : Moves R (MonadExcept.ofExcept y : EStateM ε σ α) := by
  cases y with
  | ok a => exact pure a
  | error e => exact throw e

/-- What follows a checked value may use that the check went well. -/
lemma ofExcept_bind {y : Except ε α} (hf : ∀ a, y = .ok a → Moves R (f a)) :
    Moves R ((MonadExcept.ofExcept y : EStateM ε σ α) >>= f) := by
  cases y with
  | ok a => exact hf a rfl
  | error e => exact throw e

lemma tryCatch {handle : ε → EStateM ε σ α} (hx : Moves R x) (hh : ∀ e, Moves R (handle e)) :
    Moves R (MonadExcept.tryCatch x handle) := by
  intro s
  cases h : x s with
  | ok a t =>
    rw [tryCatch_of_ok h]
    exact hx.of_ok h
  | error e t =>
    rw [tryCatch_of_error h]
    exact IsTrans.trans _ _ _ (hx.of_error h) (hh e t)

lemma map (g : α → β) (hx : Moves R x) : Moves R (g <$> x) := by
  rw [← bind_pure_comp]
  exact hx.bind fun a => pure (g a)

lemma discard (hx : Moves R x) : Moves R (Functor.discard x) := hx.map _

lemma forM_of_mem {x : α → EStateM ε σ PUnit} {as : List α} (hx : ∀ a ∈ as, Moves R (x a)) :
    Moves R (as.forM x) := by
  induction as with
  | nil => exact pure _
  | cons a as ih =>
    exact (hx a List.mem_cons_self).bind fun _ => ih fun b hb => hx b (List.mem_cons_of_mem a hb)

lemma forM {x : α → EStateM ε σ PUnit} (hx : ∀ a, Moves R (x a)) (as : List α) :
    Moves R (as.forM x) := forM_of_mem fun a _ => hx a

end Preorder

lemma modify {g : σ → σ} (h : ∀ s, R s (g s)) :
    Moves R (modify g : EStateM ε σ PUnit) := h

end Moves

/-- From every state with `P` the computation succeeds, and `P` holds again. -/
def Succeeds (P : σ → Prop) (x : EStateM ε σ α) : Prop := ∀ s, P s → ∃ a t, x s = .ok a t ∧ P t

namespace Succeeds

variable {P : σ → Prop} {x : EStateM ε σ α} {f : α → EStateM ε σ β}

lemma bind (hx : Succeeds P x) (hf : ∀ a, Succeeds P (f a)) : Succeeds P (x >>= f) := by
  intro s hs
  obtain ⟨a, t, hat, ht⟩ := hx s hs
  obtain ⟨b, u, hbu, hu⟩ := hf a t ht
  exact ⟨b, u, (bind_of_ok hat f).trans hbu, hu⟩

lemma pure (a : α) : Succeeds P (Pure.pure a : EStateM ε σ α) := fun s hs => ⟨a, s, rfl, hs⟩

lemma get : Succeeds P (MonadState.get : EStateM ε σ σ) := fun s hs => ⟨s, s, rfl, hs⟩

lemma modify {g : σ → σ} (h : ∀ s, P s → P (g s)) :
    Succeeds P (modify g : EStateM ε σ PUnit) := fun s hs => ⟨⟨⟩, g s, rfl, h s hs⟩

end Succeeds

/-- Every failure of the computation is of this sort. -/
def FailsOnly (P : ε → Prop) (x : EStateM ε σ α) : Prop := ∀ s e t, x s = .error e t → P e

namespace FailsOnly

variable {P : ε → Prop} {x : EStateM ε σ α} {f : α → EStateM ε σ β}

lemma pure (a : α) : FailsOnly P (Pure.pure a : EStateM ε σ α) := by
  intro s e t h
  cases h

lemma get : FailsOnly P (MonadState.get : EStateM ε σ σ) := by
  intro s e t h
  cases h

lemma modify (g : σ → σ) : FailsOnly P (modify g : EStateM ε σ PUnit) := by
  intro s e t h
  cases h

lemma throw {e : ε} (h : P e) : FailsOnly P (MonadExcept.throw e : EStateM ε σ α) := by
  rintro s _ _ ⟨⟩
  exact h

lemma bind (hx : FailsOnly P x) (hf : ∀ a, FailsOnly P (f a)) : FailsOnly P (x >>= f) := by
  intro s e t h
  rcases error_of_bind_error h with failed | ⟨a, u, -, failed⟩
  · exact hx s e t failed
  · exact hf a u e t failed

/-- A handler is only ever given what was let through to it. -/
lemma tryCatch {handle : ε → EStateM ε σ α} (hx : FailsOnly P x)
    (hh : ∀ e, P e → FailsOnly P (handle e)) : FailsOnly P (MonadExcept.tryCatch x handle) := by
  intro s e t h
  cases run : x s with
  | ok a u =>
    rw [tryCatch_of_ok run] at h
    cases h
  | error caught u =>
    rw [tryCatch_of_error run] at h
    exact hh caught (hx s caught u run) u e t h

lemma forM {x : α → EStateM ε σ PUnit} (hx : ∀ a, FailsOnly P (x a)) (as : List α) :
    FailsOnly P (as.forM x) := by
  induction as with
  | nil => exact pure _
  | cons a as ih => exact (hx a).bind fun _ => ih

end FailsOnly

end Metering
