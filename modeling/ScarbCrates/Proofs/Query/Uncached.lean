import ScarbCrates.Proofs.Query.Freshness
import ScarbCrates.Query.Session

/-!
# Computations without a cache

What a computation gives in one world if no result is ever stored: a question is answered by
running its computation, every time.  Nothing here depends on how a session keeps its results, so
this is what a cache has to agree with.

* `Tally` — what a computation has reported, without its durability.
* `Computation.eval`, `Computation.answer` — the result of a computation, and its tally.
* `Computation.Steady` — all computations for one question are the same, and acting on the world
  changes nothing that a computation can see.
* `Computation.Asks`, `Computation.not_asks_self` — no computation asks the question that it
  answers, at any depth.
-/

namespace ScarbCrates

/-! ## Tallies -/

/-- What a computation has reported: the files that it depends on, and whether it depends on
something that no digest captures. -/
structure Tally where
  digests : Digests
  untracked : Bool

namespace Tally

/-- The tally of a computation that has reported nothing. -/
def start : Tally := ⟨[], false⟩

/-- A tally with that of a nested result. -/
def absorb (t u : Tally) : Tally := ⟨t.digests.merge u.digests, t.untracked || u.untracked⟩

/-- Each file is there once, with the digest that a disk has for it. -/
structure Accurate (t : Tally) (d : Disk) : Prop where
  nodup : t.digests.files.Nodup
  holds : t.digests.Holds d

lemma accurate_start (d : Disk) : start.Accurate d :=
  ⟨List.nodup_nil, fun _ he => absurd he List.not_mem_nil⟩

lemma Accurate.absorb {t u : Tally} {d : Disk} (ht : t.Accurate d) (hu : u.Accurate d) :
    (t.absorb u).Accurate d :=
  ⟨Digests.nodup_merge ht.nodup u.digests, ht.holds.merge hu.holds⟩

end Tally

/-- The tally of a frame. -/
def Frame.tally {κ : Type} (f : Frame κ) : Tally := ⟨f.digests, f.untracked⟩

/-- The tally that is stored with a result. -/
def Entry.tally {V : Type} (e : Entry V) : Tally := ⟨e.digests, e.untracked⟩

namespace Computation

variable {κ σ V ε α : Type}

/-! ## Evaluation -/

/-- What becomes of a result: it can be stored only if its files have a fingerprint. -/
def settled : Except (Failure ε) α × Tally → Except (Failure ε) (α × Tally)
  | (.error f, _) => .error f
  | (.ok v, t) =>
    match t.digests.fingerprint with
    | .error fault => .error (.input (.datum fault))
    | .ok _ => .ok (v, t)

/-- **The result of a computation in one world, and its tally.** -/
def eval (w : World σ) : {α : Type} → Computation κ σ V ε α → Tally →
    Except (Failure ε) α × Tally
  | _, .done a, t => (.ok a, t)
  | _, .fail f, t => (.error f, t)
  | _, .declare p next, t =>
    match (t.digests.declare w.disk p).run.value with
    | .error fault => eval w (next (.error (.input (.access fault)))) t
    | .ok ds => eval w (next (.ok ())) { t with digests := ds }
  | _, .lower _ next, t => eval w next t
  | _, .untracked next, t => eval w next { t with untracked := true }
  | _, .request _ body next, t =>
    match settled (eval w body .start) with
    | .error f => eval w (next (.error f)) t
    | .ok (v, u) => eval w (next (.ok v)) (t.absorb u)
  | _, .invalidate _ next, t => eval w (next 0) t
  | _, .clear next, t => eval w next t
  | _, .inspect next, t => eval w (next (Session.start w)) t
  | _, .perform act next, t => eval w (next (act w).value.1) t

lemma settled_eq_ok {out : Except (Failure ε) α × Tally} {v : α} {t : Tally}
    (h : settled out = .ok (v, t)) :
    out = (.ok v, t) ∧ ∃ digest, t.digests.fingerprint = .ok digest := by
  obtain ⟨r, u⟩ := out
  cases r with
  | error f => simp [settled] at h
  | ok a =>
      simp only [settled] at h
      split at h
      · simp at h
      · rename_i digest hd
        simp only [Except.ok.injEq, Prod.mk.injEq] at h
        obtain ⟨rfl, rfl⟩ := h
        exact ⟨rfl, digest, hd⟩

/-- **What a question is answered with** by a computation in one world: its result, with what the
result depends on. -/
def answer (w : World σ) (c : Computation κ σ V ε α) : Except (Failure ε) (α × Tally) :=
  settled (c.eval w .start)

/-- Whatever a computation reports is so in its world. -/
lemma accurate_eval {w : World σ} (c : Computation κ σ V ε α) :
    ∀ {t : Tally}, t.Accurate w.disk → (c.eval w t).2.Accurate w.disk := by
  induction c with
  | done a => intro t ht; exact ht
  | fail f => intro t ht; exact ht
  | declare p next ih =>
      intro t ht
      simp only [eval]
      split
      · exact ih _ ht
      · rename_i ds hds
        exact ih _ ⟨Digests.nodup_declare ht.nodup hds, ht.holds.declare hds⟩
  | lower level next ih => intro t ht; exact ih ht
  | untracked next ih => intro t ht; exact ih ⟨ht.nodup, ht.holds⟩
  | request q body next ihb ihn =>
      intro t ht
      simp only [eval]
      split
      · exact ihn _ ht
      · rename_i v u hu
        have hb := ihb (Tally.accurate_start w.disk)
        rw [(settled_eq_ok hu).1] at hb
        exact ihn _ (ht.absorb hb)
  | invalidate level next ih => intro t ht; exact ih _ ht
  | clear next ih => intro t ht; exact ih ht
  | inspect next ih => intro t ht; exact ih _ ht
  | perform act next ih => intro t ht; exact ih _ ht

lemma accurate_of_answer {w : World σ} {c : Computation κ σ V ε α} {v : α} {t : Tally}
    (h : c.answer w = .ok (v, t)) : t.Accurate w.disk := by
  have hc := accurate_eval c (Tally.accurate_start w.disk)
  rwa [(settled_eq_ok h).1] at hc

/-- A question that is asked first has its answer for a result, and what the answer depends on for
a tally. -/
lemma eval_ask (w : World σ) (q : Question κ) (c : Computation κ σ V ε V) :
    (ask q c).eval w .start =
      match c.answer w with
      | .error f => (.error f, .start)
      | .ok (v, u) => (.ok v, u) := by
  cases hc : c.answer w with
  | error f =>
      rw [answer] at hc
      simp only [ask, eval, hc, ofExcept]
  | ok out =>
      obtain ⟨v, u⟩ := out
      have habs : Tally.start.absorb u = u := by
        have hd : Digests.merge [] u.digests = u.digests :=
          Digests.merge_eq_append (accurate_of_answer hc).nodup
        rw [Tally.absorb, Tally.start, Bool.false_or, hd]
      rw [answer] at hc
      simp only [ask, eval, hc, ofExcept, habs]

lemma answer_ask (w : World σ) (q : Question κ) (c : Computation κ σ V ε V) :
    (ask q c).answer w = c.answer w := by
  rw [answer, eval_ask]
  cases hc : c.answer w with
  | error f => rfl
  | ok out =>
      obtain ⟨digest, hdigest⟩ := (settled_eq_ok hc).2
      simp only [settled, hdigest]

/-! ## Steady computations -/

/-- **A steady computation:** whichever question it asks, it brings along the computation that the
family has for that question; it leaves the stored results alone; and where it acts on the world, it
sees the same in all worlds of a class and stays in the class. -/
def Steady (P : Question κ → Computation κ σ V ε V) (W : World σ → Prop) :
    {α : Type} → Computation κ σ V ε α → Prop
  | _, .done _ => True
  | _, .fail _ => True
  | _, .declare _ next => ∀ r, Steady P W (next r)
  | _, .lower _ next => Steady P W next
  | _, .untracked next => Steady P W next
  | _, .request q body next => body = P q ∧ ∀ r, Steady P W (next r)
  | _, .invalidate _ _ => False
  | _, .clear _ => False
  | _, .inspect _ => False
  | _, .perform act next =>
    ∃ b, (∀ w, W w → (act w).value.1 = b ∧ W (act w).value.2) ∧ Steady P W (next b)

/-- Whether a computation may come to ask a question, itself or through a nested one, in a
world. -/
def Asks (w : World σ) (q : Question κ) : {α : Type} → Computation κ σ V ε α → Prop
  | _, .done _ => False
  | _, .fail _ => False
  | _, .declare _ next => ∃ r, Asks w q (next r)
  | _, .lower _ next => Asks w q next
  | _, .untracked next => Asks w q next
  | _, .request q' body next => q = q' ∨ Asks w q body ∨ ∃ r, Asks w q (next r)
  | _, .invalidate _ _ => False
  | _, .clear _ => False
  | _, .inspect _ => False
  | _, .perform act next => Asks w q (next (act w).value.1)

lemma not_asks_ofExcept {w : World σ} {q : Question κ} (r : Except (Failure ε) α) :
    ¬(ofExcept r : Computation κ σ V ε α).Asks w q := by
  cases r <;> exact fun h => h

section Family

variable {P : Question κ → Computation κ σ V ε V} {W : World σ → Prop} {w : World σ}

/-- A computation is a finite tree, so every chain of questions that it asks comes to an end. -/
lemma acc_of_asks (hP : ∀ q, (P q).Steady P W) (hw : W w) {c : Computation κ σ V ε α}
    (hc : c.Steady P W) {q : Question κ} (h : c.Asks w q) :
    Acc (fun q' q => (P q).Asks w q') q := by
  induction c generalizing q with
  | done a => exact h.elim
  | fail f => exact h.elim
  | declare p next ih => exact h.elim fun r hr => ih r (hc r) hr
  | lower level next ih => exact ih hc h
  | untracked next ih => exact ih hc h
  | request q' body next ihb ihn =>
      obtain ⟨rfl, hn⟩ := hc
      rcases h with rfl | h | ⟨r, h⟩
      · exact Acc.intro q fun q'' h' => ihb (hP q) h'
      · exact ihb (hP q') h
      · exact ihn r (hn r) h
  | invalidate level next ih => exact h.elim
  | clear next ih => exact h.elim
  | inspect next ih => exact h.elim
  | perform act next ih =>
      obtain ⟨b, hb, hn⟩ := hc
      have h : (next (act w).value.1).Asks w q := h
      rw [(hb w hw).1] at h
      exact ih b hn h

/-- **No computation asks the question that it answers,** at any depth. -/
lemma not_asks_self (hP : ∀ q, (P q).Steady P W) (hw : W w) (q : Question κ) :
    ¬(P q).Asks w q := by
  intro h
  have hacc := acc_of_asks hP hw (hP q) h
  induction hacc with
  | intro q _ ih => exact ih q h h

end Family

end Computation

end ScarbCrates
