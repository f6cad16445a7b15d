import ScarbCrates.Proofs.Query.Uncached

/-!
# One computation after the other

What is known of two computations is known of the one that runs them in turn.

* `Computation.eval_bind`, `Session.run_bind` — the second runs on what the first leaves.
* `Computation.Steady.bind`, `Computation.asks_of_bind` — steadiness, and the questions asked.
-/

namespace ScarbCrates

variable {κ σ V ε α β : Type}

namespace Computation

variable {P : Question κ → Computation κ σ V ε V} {W : World σ → Prop} {w : World σ}

/-- The second computation goes on from the tally of the first. -/
lemma eval_bind (c : Computation κ σ V ε α) (f : α → Computation κ σ V ε β) (t : Tally) :
    (c >>= f).eval w t =
      match c.eval w t with
      | (.ok a, u) => (f a).eval w u
      | (.error e, u) => (.error e, u) := by
  show (andThen f c).eval w t = _
  induction c generalizing t with
  | done a => rfl
  | fail e => rfl
  | declare p next ih =>
      simp only [andThen, eval]
      split <;> exact ih _ f _
  | lower level next ih => exact ih f t
  | untracked next ih => exact ih f _
  | request q body next _ ih =>
      simp only [andThen, eval]
      split <;> exact ih _ f _
  | invalidate level next ih => exact ih _ f t
  | clear next ih => exact ih f t
  | inspect next ih => exact ih _ f t
  | perform act next ih => exact ih _ f t

lemma eval_bind_ok {c : Computation κ σ V ε α} {t u : Tally} {a : α}
    (h : c.eval w t = (.ok a, u)) (f : α → Computation κ σ V ε β) :
    (c >>= f).eval w t = (f a).eval w u := by
  rw [eval_bind, h]

lemma Steady.bind {c : Computation κ σ V ε α} {f : α → Computation κ σ V ε β}
    (hc : c.Steady P W) (hf : ∀ a, (f a).Steady P W) : (c >>= f).Steady P W := by
  show (andThen f c).Steady P W
  induction c with
  | done a => exact hf a
  | fail e => trivial
  | declare p next ih => exact fun r => ih r (hc r) hf
  | lower level next ih => exact ih hc hf
  | untracked next ih => exact ih hc hf
  | request q body next _ ih => exact ⟨hc.1, fun r => ih r (hc.2 r) hf⟩
  | invalidate level next ih => exact hc.elim
  | clear next ih => exact hc.elim
  | inspect next ih => exact hc.elim
  | perform act next ih =>
      obtain ⟨b, hb, hn⟩ := hc
      exact ⟨b, hb, ih b hn hf⟩

/-- A question is asked by the first computation or by the second. -/
lemma asks_of_bind {c : Computation κ σ V ε α} {f : α → Computation κ σ V ε β} {q : Question κ}
    (h : (c >>= f).Asks w q) : c.Asks w q ∨ ∃ a, (f a).Asks w q := by
  change (andThen f c).Asks w q at h
  induction c with
  | done a => exact Or.inr ⟨a, h⟩
  | fail e => exact h.elim
  | declare p next ih =>
      obtain ⟨r, h⟩ := h
      exact (ih r h).imp_left fun h => ⟨r, h⟩
  | lower level next ih => exact ih h
  | untracked next ih => exact ih h
  | request q' body next _ ih =>
      rcases h with h | h | ⟨r, h⟩
      · exact Or.inl (Or.inl h)
      · exact Or.inl (Or.inr (Or.inl h))
      · exact (ih r h).imp_left fun h => Or.inr (Or.inr ⟨r, h⟩)
  | invalidate level next ih => exact h.elim
  | clear next ih => exact h.elim
  | inspect next ih => exact h.elim
  | perform act next ih => exact ih _ h

end Computation

namespace Session

variable [DecidableEq κ] [QueryKey κ]

/-- The second computation goes on in the session that the first leaves. -/
lemma run_bind (c : Computation κ σ V ε α) (f : α → Computation κ σ V ε β)
    (s : Session κ σ V) :
    run (c >>= f) s =
      match run c s with
      | (.ok a, s') => run (f a) s'
      | (.error e, s') => (.error e, s') := by
  show run (Computation.andThen f c) s = _
  induction c generalizing s with
  | done a => rfl
  | fail e => rfl
  | declare p next ih => exact ih _ f _
  | lower level next ih => exact ih f _
  | untracked next ih => exact ih f _
  | request q body next _ ih => exact ih _ f _
  | invalidate level next ih => exact ih _ f _
  | clear next ih => exact ih f _
  | inspect next ih => exact ih _ f _
  | perform act next ih => exact ih _ f _

end Session

end ScarbCrates
