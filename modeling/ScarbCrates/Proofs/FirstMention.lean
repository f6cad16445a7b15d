import Mathlib.Data.List.Induction
import Mathlib.Data.List.Nodup
import Mathlib.Tactic.Common

/-!
# In order of first mention

Things that are put down one after the other, each when it is mentioned for the first time.  Sets of
flags, the keys of tables and the files of digests all come in this order.

* `mention` — one more thing.
* `foldl_mention` — many: those that are new, without repetitions.
* `nodup_eraseDups`, `eraseDups_of_nodup` — each thing is there once.
-/

namespace ScarbCrates

variable {α : Type} [DecidableEq α]

/-- **What has been mentioned, and one more thing.** -/
def mention (seen : List α) (a : α) : List α := if a ∈ seen then seen else seen ++ [a]

/-- What is mentioned again does not move, so only what is new comes after what is there. -/
theorem foldl_mention (seen as : List α) :
    as.foldl mention seen = seen ++ (as.filter fun a => a ∉ seen).eraseDups := by
  induction as generalizing seen with
  | nil => exact (List.append_nil seen).symm
  | cons a rest ih =>
      rw [List.foldl_cons, ih, mention]
      split_ifs with ha
      · rw [List.filter_cons_of_neg (by simpa using ha)]
      · rw [List.filter_cons_of_pos (by simpa using ha), List.eraseDups_cons, List.append_assoc,
          List.singleton_append, List.filter_filter]
        congr 4
        funext b
        rw [Bool.eq_iff_iff]
        simp [and_comm]

lemma foldl_mention_nil (as : List α) : as.foldl mention [] = as.eraseDups := by
  have hall : (as.filter fun a => a ∉ ([] : List α)) = as :=
    List.filter_eq_self.2 fun _ _ => decide_eq_true List.not_mem_nil
  rw [foldl_mention, List.nil_append, hall]

lemma nodup_mention {seen : List α} (h : seen.Nodup) (a : α) : (mention seen a).Nodup := by
  rw [mention]
  split_ifs with ha
  · exact h
  · rw [← List.concat_eq_append]
    exact h.concat ha

lemma nodup_eraseDups (as : List α) : as.eraseDups.Nodup := by
  rw [← foldl_mention_nil]
  exact List.foldlRecOn as mention List.nodup_nil fun _ h a _ => nodup_mention h a

lemma eraseDups_concat (as : List α) (a : α) :
    (as ++ [a]).eraseDups = mention as.eraseDups a := by
  rw [← foldl_mention_nil, List.foldl_append, foldl_mention_nil]
  rfl

lemma filter_mention (p : α → Bool) (seen : List α) (a : α) :
    (mention seen a).filter p = if p a then mention (seen.filter p) a else seen.filter p := by
  rw [mention, mention]
  by_cases ha : a ∈ seen <;> by_cases hp : p a <;> simp [ha, hp]

/-- Things that can be told apart by what they are called are mentioned as their names are. -/
lemma map_eraseDups {β : Type} [BEq β] [LawfulBEq β] {f : α → β} (hf : Function.Injective f)
    (as : List α) : as.eraseDups.map f = (as.map f).eraseDups := by
  classical
  obtain rfl := lawful_beq_subsingleton ‹BEq β› instBEqOfDecidableEq
  induction as using List.reverseRecOn with
  | nil => rfl
  | append_singleton as a ih =>
      rw [List.map_append, List.map_singleton, eraseDups_concat, eraseDups_concat, ← ih, mention,
        mention, apply_ite (List.map f), List.map_append, List.map_singleton]
      exact if_congr (List.mem_map_of_injective hf).symm rfl rfl

/-- Of what has been mentioned, some things are in the order in which they were mentioned. -/
lemma eraseDups_filter (p : α → Bool) (as : List α) :
    (as.filter p).eraseDups = as.eraseDups.filter p := by
  induction as using List.reverseRecOn with
  | nil => rfl
  | append_singleton as a ih =>
      rw [eraseDups_concat, filter_mention, ← ih, List.filter_append]
      split_ifs with hp
      · rw [List.filter_cons_of_pos hp, List.filter_nil, eraseDups_concat]
      · rw [List.filter_cons_of_neg hp, List.filter_nil, List.append_nil]

lemma eraseDups_of_nodup {as : List α} (h : as.Nodup) : as.eraseDups = as := by
  induction as with
  | nil => rfl
  | cons a rest ih =>
      obtain ⟨ha, hrest⟩ := List.nodup_cons.1 h
      have hfilter : (rest.filter fun b => !b == a) = rest := by
        refine List.filter_eq_self.2 fun b hb => ?_
        have hne : b ≠ a := fun heq => ha (heq ▸ hb)
        simpa using hne
      rw [List.eraseDups_cons, hfilter, ih hrest]

end ScarbCrates
