import ScarbCrates.Proofs.Json.Grammar
import ScarbCrates.Proofs.Query.Reading
import ScarbCrates.Text.Classes

/-!
# Inside and outside of strings

Going through a JSON text one is outside of strings, inside of one, or just after a backslash.
Outside there are only few letters, and what ends a line stands outside only if it is white space
to JSON.  Some letters that are a text by themselves and also stand inside of a string of another
text have all their strings where the other text has none, and so consist of these few letters.

* `Quoting.Leads` — from one such state to another by letters that may stand there.
* `Spells.leads` — every part of a text begins and ends outside of strings.
* `Quoting.bare_of_leads` — letters that may stand both ways.
* `IsText.has_eq_false` — the names of an object that stands inside of a string.
-/

namespace ScarbCrates

namespace Json

/-- The letters that stand outside of strings, other than white space and digits. -/
def marks : List Char :=
  ['"', '[', ']', '\x7b', '\x7d', ',', ':', '+', '-', '.', 'e', 'E', 't', 'r', 'u', 'f', 'a', 'l',
    's', 'n']

/-- The letters that stand outside of strings. -/
def Bare (c : Char) : Prop := isSpace c = true ∨ c.isDigit = true ∨ c ∈ marks

/-- There are no backslashes outside of strings. -/
lemma Bare.ne_slash {c : Char} (h : Bare c) : c ≠ '\\' := by
  rintro rfl
  revert h
  rw [Bare]
  decide

/-- What ends a line outside of strings is white space to JSON. -/
lemma Bare.lineEnd {c : Char} (h : Bare c) (hc : Text.isLineEnd c = true) :
    c = '\n' ∨ c = '\r' := by
  rcases h with h | h | h
  · simp only [isSpace, Bool.or_eq_true, decide_eq_true_eq] at h
    rcases h with ((rfl | rfl) | rfl) | rfl
    · cases hc
    · cases hc
    · exact Or.inl rfl
    · exact Or.inr rfl
  · obtain ⟨hlow, hhigh⟩ := Char.isDigit_iff_toNat.1 h
    have hzero : '0'.toNat = 48 := rfl
    have hnine : '9'.toNat = 57 := rfl
    simp only [Text.isLineEnd, Bool.and_eq_true, Bool.or_eq_true, decide_eq_true_eq,
      beq_iff_eq] at hc
    omega
  · have hmarks : (marks.all fun d => !Text.isLineEnd d) = true := by decide
    have hno := List.all_eq_true.1 hmarks c h
    rw [hc] at hno
    cases hno

/-- Where one is in a text. -/
inductive Quoting
  | outside
  | inside
  | afterSlash

namespace Quoting

/-- Where one is after a letter. -/
def next : Quoting → Char → Quoting
  | outside, c => if c = '"' then inside else outside
  | inside, c => if c = '"' then outside else if c = '\\' then afterSlash else inside
  | afterSlash, _ => inside

/-- Which letters may come. -/
def Admits : Quoting → Char → Prop
  | outside, c => Bare c
  | inside, _ => True
  | afterSlash, c => Text.isLineEnd c = false

/-- **From one state to another** by letters that may come. -/
inductive Leads : Quoting → List Char → Quoting → Prop
  | nil (q : Quoting) : Leads q [] q
  | cons {q q' : Quoting} {c : Char} {cs : List Char} (hc : q.Admits c)
      (h : Leads (q.next c) cs q') : Leads q (c :: cs) q'

variable {q q' q'' : Quoting} {a b : List Char}

lemma Leads.append (h : Leads q a q') (h' : Leads q' b q'') : Leads q (a ++ b) q'' := by
  induction h with
  | nil => exact h'
  | cons hc _ ih => exact .cons hc (ih h')

lemma Leads.split (h : Leads q (a ++ b) q'') : ∃ q', Leads q a q' ∧ Leads q' b q'' := by
  induction a generalizing q with
  | nil => exact ⟨q, .nil q, h⟩
  | cons c a ih =>
      cases h with
      | cons hc h =>
          obtain ⟨q', ha, hb⟩ := ih h
          exact ⟨q', .cons hc ha, hb⟩

lemma Leads.unique (h : Leads q a q') (h' : Leads q a q'') : q' = q'' := by
  induction h with
  | nil =>
      cases h'
      rfl
  | cons _ _ ih =>
      cases h' with
      | cons _ h' => exact ih h'

lemma leads_outside (h : ∀ c ∈ a, Bare c ∧ c ≠ '"') : Leads outside a outside := by
  induction a with
  | nil => exact .nil _
  | cons c a ih =>
      obtain ⟨hbare, hquote⟩ := h c List.mem_cons_self
      refine .cons hbare ?_
      rw [next, if_neg hquote]
      exact ih fun c hc => h c (List.mem_cons_of_mem _ hc)

lemma leads_inside (h : ∀ c ∈ a, c ≠ '"' ∧ c ≠ '\\') : Leads inside a inside := by
  induction a with
  | nil => exact .nil _
  | cons c a ih =>
      obtain ⟨hquote, hslash⟩ := h c List.mem_cons_self
      refine .cons trivial ?_
      rw [next, if_neg hquote, if_neg hslash]
      exact ih fun c hc => h c (List.mem_cons_of_mem _ hc)

lemma leads_one {c : Char} (hc : q.Admits c) (hq : q.next c = q') : Leads q [c] q' :=
  .cons hc (hq ▸ .nil _)

/-- Only quotes and backslashes lead from one state to another. -/
lemma Leads.eq_of_plain (h : Leads q a q') (ha : ∀ c ∈ a, c ≠ '"' ∧ c ≠ '\\')
    (hq : q ≠ afterSlash) : q' = q := by
  induction h with
  | nil => rfl
  | @cons q q' c a _ _ ih =>
      obtain ⟨⟨hquote, hslash⟩, ha⟩ := List.forall_mem_cons.1 ha
      have hnext : q.next c = q := by
        cases q with
        | outside => exact if_neg hquote
        | inside => rw [next, if_neg hquote, if_neg hslash]
        | afterSlash => exact absurd rfl hq
      exact (ih ha (by rwa [hnext])).trans hnext

/-- What ends a line, but not to JSON, stands inside of a string. -/
lemma Admits.eq_inside {c : Char} (h : q.Admits c) (hc : Text.isLineEnd c = true)
    (hbare : ¬Bare c) : q = inside := by
  cases q with
  | outside => exact absurd h hbare
  | inside => rfl
  | afterSlash => exact absurd hc (by rw [show Text.isLineEnd c = false from h]; simp)

/-- Inside of a string and outside of all. -/
def Opposite (q q' : Quoting) : Prop := q = outside ∧ q' = inside ∨ q = inside ∧ q' = outside

namespace Opposite

variable {p p' : Quoting} {c : Char}

lemma bare (h : Opposite p p') (hc : p.Admits c) (hc' : p'.Admits c) : Bare c := by
  rcases h with ⟨rfl, -⟩ | ⟨-, rfl⟩
  · exact hc
  · exact hc'

lemma next (h : Opposite p p') (hc : Bare c) : Opposite (p.next c) (p'.next c) := by
  have hout : outside.next c = if c = '"' then inside else outside := rfl
  have hin : inside.next c = if c = '"' then outside else inside := by
    rw [Quoting.next, if_neg hc.ne_slash]
  by_cases hquote : c = '"'
  · rw [if_pos hquote] at hout hin
    rcases h with ⟨rfl, rfl⟩ | ⟨rfl, rfl⟩
    · exact Or.inr ⟨hout, hin⟩
    · exact Or.inl ⟨hin, hout⟩
  · rw [if_neg hquote] at hout hin
    rcases h with ⟨rfl, rfl⟩ | ⟨rfl, rfl⟩
    · exact Or.inl ⟨hout, hin⟩
    · exact Or.inr ⟨hin, hout⟩

end Opposite

/-- **Letters that may stand outside of strings and inside of one** are all of the few kinds: what
is a string to one is none to the other. -/
theorem bare_of_leads {p p' : Quoting} (hp : Opposite p p') (h : Leads p a q) (h' : Leads p' a q') :
    ∀ c ∈ a, Bare c := by
  induction h generalizing p' with
  | nil => exact fun c hc => nomatch hc
  | @cons p q c a hc _ ih =>
      cases h' with
      | cons hc' h' =>
          have hbare := hp.bare hc hc'
          intro d hd
          rcases List.mem_cons.1 hd with rfl | hd
          · exact hbare
          · exact ih (hp.next hbare) h' d hd

end Quoting

/-! ## Parts of a text -/

open Quoting

lemma hexValue?_plain {c : Char} {n : Nat} (h : hexValue? c = some n) : c ≠ '"' ∧ c ≠ '\\' := by
  constructor
  · rintro rfl
    cases h
  · rintro rfl
    cases h

lemma hexFrom?_plain {ds : List Char} {value n : Nat} (h : hexFrom? value ds = some n) :
    ∀ c ∈ ds, c ≠ '"' ∧ c ≠ '\\' := by
  induction ds generalizing value with
  | nil => exact fun c hc => nomatch hc
  | cons c ds ih =>
      obtain ⟨digit, hdigit, hrest⟩ := Option.bind_eq_some_iff.1 h
      intro d hd
      rcases List.mem_cons.1 hd with rfl | hd
      · exact hexValue?_plain hdigit
      · exact ih hrest d hd

lemma shortEscape?_lineEnd {l c : Char} (h : shortEscape? l = some c) :
    Text.isLineEnd l = false := by
  unfold shortEscape? at h
  split at h
  any_goals rfl
  cases h

/-- After a backslash one is soon inside of the string again. -/
lemma Escape.leads {c : Char} {u : List Char} (h : Escape c u) : Leads afterSlash u inside := by
  cases h with
  | short h => exact leads_one (shortEscape?_lineEnd h) rfl
  | number hlength hn hlow hhigh =>
      exact .cons rfl (leads_inside (hexFrom?_plain hn))
  | pair hlength hlength' hds hds' hhigh hlow =>
      refine .cons rfl ((leads_inside (hexFrom?_plain hds)).append (.cons trivial ?_))
      exact .cons rfl (leads_inside (hexFrom?_plain hds'))

lemma Letters.leads {cs s rest : List Char} (h : Letters cs s rest) :
    ∃ u, s = u ++ rest ∧ Leads inside u outside := by
  induction h with
  | close rest => exact ⟨['"'], rfl, leads_one trivial rfl⟩
  | @plain c cs s rest hquote hslash hc _ ih =>
      obtain ⟨u, rfl, hu⟩ := ih
      refine ⟨c :: u, rfl, .cons trivial ?_⟩
      rwa [next, if_neg hquote, if_neg hslash]
  | @escape c u cs s rest hu _ ih =>
      obtain ⟨u', rfl, hu'⟩ := ih
      refine ⟨'\\' :: (u ++ u'), by simp, .cons trivial (hu.leads.append hu')⟩

/-- Letters that stand outside of strings and are no quotes. -/
lemma bare_of_isDigit {c : Char} (h : c.isDigit = true) : Bare c ∧ c ≠ '"' := by
  refine ⟨Or.inr (Or.inl h), ?_⟩
  rintro rfl
  cases h

lemma AreDigits.bare {ds : List Char} (h : AreDigits ds) : ∀ c ∈ ds, Bare c ∧ c ≠ '"' := fun c hc =>
  bare_of_isDigit (h.2 c hc)

/-- A letter of the list is one that stands outside of strings. -/
lemma bare_of_mem {c : Char}
    (h : c ∈ ['+', '-', '.', 'e', 'E', 't', 'r', 'u', 'f', 'a', 'l', 's', 'n']) :
    Bare c ∧ c ≠ '"' := by
  refine ⟨Or.inr (Or.inr (List.mem_append_right ['"', '[', ']', '\x7b', '\x7d', ',', ':'] h)), ?_⟩
  rintro rfl
  revert h
  decide

lemma Exponent.WellFormed.bare {e : Exponent} (h : e.WellFormed) :
    ∀ c ∈ e.chars, Bare c ∧ c ≠ '"' := by
  intro c hc
  rcases List.mem_cons.1 hc with rfl | hc
  · rcases h.letter with hletter | hletter <;> rw [hletter] <;> exact bare_of_mem (by decide)
  rcases List.mem_append.1 hc with hc | hc
  · rcases h.sign c (Option.mem_toList.1 hc) with rfl | rfl <;> exact bare_of_mem (by decide)
  · exact h.digits.bare c hc

lemma Numeral.WellFormed.bare {x : Numeral} (h : x.WellFormed) :
    ∀ c ∈ x.chars, Bare c ∧ c ≠ '"' := by
  intro c hc
  rcases List.mem_append.1 hc with hc | hc
  · rcases List.mem_append.1 hc with hc | hc
    · split_ifs at hc
      · obtain rfl := List.mem_singleton.1 hc
        exact bare_of_mem (by decide)
      · cases hc
    · exact h.whole.bare c hc
  rcases List.mem_append.1 hc with hc | hc
  · cases hx : x.fraction with
    | none =>
        rw [hx] at hc
        cases hc
    | some ds =>
        rw [hx] at hc
        rcases List.mem_cons.1 hc with rfl | hc
        · exact bare_of_mem (by decide)
        · exact (h.fraction ds hx).bare c hc
  · cases hx : x.exponent with
    | none =>
        rw [hx] at hc
        cases hc
    | some e =>
        rw [hx] at hc
        exact (h.exponent e hx).bare c hc

/-- **Every part of a text** begins and ends outside of strings. -/
theorem Spells.leads {part : Part} {n : Nat} {s rest : List Char} (h : Spells part n s rest) :
    ∃ u, s = u ++ rest ∧ Leads outside u outside := by
  have hmark : ∀ {c : Char} {s rest : List Char}, c ∈ ['[', ']', '\x7b', '\x7d', ',', ':'] →
      (∃ u, s = u ++ rest ∧ Leads outside u outside) →
      ∃ u, c :: s = u ++ rest ∧ Leads outside u outside := by
    rintro c _ rest hc ⟨u, rfl, hu⟩
    refine ⟨c :: u, rfl, .cons ?_ ?_⟩
    · exact Or.inr (Or.inr (List.mem_cons_of_mem _ (List.mem_append_left _ hc)))
    · rw [next, if_neg (by rintro rfl; revert hc; decide)]
      exact hu
  have hnil : ∀ rest : List Char, ∃ u, rest = u ++ rest ∧ Leads outside u outside := fun rest =>
    ⟨[], rfl, .nil _⟩
  have hjoin : ∀ {s s' rest : List Char}, (∃ u, s = u ++ s' ∧ Leads outside u outside) →
      (∃ u, s' = u ++ rest ∧ Leads outside u outside) →
      ∃ u, s = u ++ rest ∧ Leads outside u outside := by
    rintro s s' rest ⟨u, rfl, hu⟩ ⟨u', rfl, hu'⟩
    exact ⟨u ++ u', by rw [List.append_assoc], hu.append hu'⟩
  have hquoted : ∀ {cs s rest : List Char}, Letters cs s rest →
      ∃ u, '"' :: s = u ++ rest ∧ Leads outside u outside := by
    intro cs s rest hletters
    obtain ⟨u, rfl, hu⟩ := hletters.leads
    exact ⟨'"' :: u, rfl, .cons (Or.inr (Or.inr List.mem_cons_self)) hu⟩
  induction h with
  | @blank part n c s rest hc _ ih =>
      obtain ⟨u, rfl, hu⟩ := ih
      refine ⟨c :: u, rfl, .cons (Or.inl hc) ?_⟩
      rw [next, if_neg (by rintro rfl; cases hc)]
      exact hu
  | @word w v h rest =>
      have hwords : ∀ x ∈ words,
          x.1 ⊆ ['+', '-', '.', 'e', 'E', 't', 'r', 'u', 'f', 'a', 'l', 's', 'n'] := by
        decide
      exact ⟨w, rfl, leads_outside fun c hc => bare_of_mem (hwords _ h hc)⟩
  | number h hv rest => exact ⟨_, rfl, leads_outside h.bare⟩
  | text h => exact hquoted h
  | array _ ih => exact hmark (by decide) ih
  | object _ ih => exact hmark (by decide) ih
  | endItems => exact hmark (by decide) (hnil _)
  | firstItem _ _ ih ihs => exact hjoin ih ihs
  | nextItem _ _ ih ihs => exact hmark (by decide) (hjoin ih ihs)
  | endMembers => exact hmark (by decide) (hnil _)
  | firstMember _ _ ih ihs => exact hjoin ih ihs
  | nextMember _ _ ih ihs => exact hmark (by decide) (hjoin ih ihs)
  | member hk _ ih => exact hjoin (hquoted hk) ih
  | colon _ ih => exact hmark (by decide) ih

/-! ## Names of members -/

lemma Letters.exists_mem {cs s rest : List Char} (h : Letters cs s rest) :
    '\\' ∈ s ∨ ∀ c ∈ cs, c ∈ s := by
  induction h with
  | close rest => exact Or.inr fun c hc => nomatch hc
  | plain hquote hslash hc _ ih =>
      rcases ih with ih | ih
      · exact Or.inl (List.mem_cons_of_mem _ ih)
      · refine Or.inr fun d hd => ?_
        rcases List.mem_cons.1 hd with rfl | hd
        · exact List.mem_cons_self
        · exact List.mem_cons_of_mem _ (ih d hd)
  | escape => exact Or.inl List.mem_cons_self

/-- The names of the members that a part has. -/
def Part.names : Part → List String
  | .value (.object ms) => Assoc.keys ms
  | .members _ ms => Assoc.keys ms
  | .member name _ => [name]
  | _ => []

lemma mem_collect {α : Type} {ms : List (String × α)} {m : String × α} (h : m ∈ collect ms) :
    m ∈ ms := by
  have hfold : ∀ (done : List (String × α)),
      m ∈ ms.foldl (fun t e => Assoc.put t e.1 e.2) done → m ∈ done ∨ m ∈ ms := by
    clear h
    induction ms with
    | nil => exact fun _ h => Or.inl h
    | cons e ms ih =>
        intro done h
        rcases ih _ h with h | h
        · rcases Assoc.mem_put h with h | rfl
          · exact Or.inl h
          · exact Or.inr List.mem_cons_self
        · exact Or.inr (List.mem_cons_of_mem _ h)
  exact (hfold [] h).resolve_left List.not_mem_nil

/-- **A name is written with its own letters,** unless there is a backslash. -/
theorem Spells.exists_mem {part : Part} {n : Nat} {s rest : List Char} (h : Spells part n s rest)
    {name : String} (hname : name ∈ part.names) : '\\' ∈ s ∨ ∀ c ∈ name.toList, c ∈ s := by
  have hmono : ∀ {s s' : List Char}, s ⊆ s' → ('\\' ∈ s ∨ ∀ c ∈ name.toList, c ∈ s) →
      '\\' ∈ s' ∨ ∀ c ∈ name.toList, c ∈ s' := by
    intro s s' hs h
    rcases h with h | h
    · exact Or.inl (hs h)
    · exact Or.inr fun c hc => hs (h c hc)
  have hrest : ∀ {part : Part} {n : Nat} {s rest : List Char}, Spells part n s rest → rest ⊆ s := by
    intro part n s rest h
    obtain ⟨u, rfl, -⟩ := h.leads
    exact List.subset_append_right u rest
  induction h with
  | blank hc _ ih => exact hmono (List.subset_cons_self _ _) (ih hname)
  | @object ms n s rest _ ih =>
      obtain ⟨m, hm, rfl⟩ := List.mem_map.1 hname
      exact hmono (List.subset_cons_self _ _) (ih (List.mem_map_of_mem (mem_collect hm)))
  | firstMember h _ ih ihs =>
      rcases List.mem_cons.1 hname with rfl | hname
      · exact ih (List.mem_singleton.2 rfl)
      · exact hmono (hrest h) (ihs hname)
  | nextMember h _ ih ihs =>
      refine hmono (List.subset_cons_self _ _) ?_
      rcases List.mem_cons.1 hname with rfl | hname
      · exact ih (List.mem_singleton.2 rfl)
      · exact hmono (hrest h) (ihs hname)
  | @member cs v n s s' rest hk _ _ =>
      obtain rfl := List.mem_singleton.1 hname
      refine hmono (List.subset_cons_self _ _) ?_
      rw [String.toList_ofList]
      exact hk.exists_mem
  | word h rest =>
      have hwords : ∀ x ∈ words, (Part.value x.2).names = [] := by decide
      rw [hwords _ h] at hname
      cases hname
  | number h hv rest => rcases Numeral.value?_cases hv with ⟨i, rfl⟩ | ⟨x, rfl⟩ <;> cases hname
  | _ => cases hname

/-! ## Whole texts -/

variable {v : Value} {n : Nat} {t : List Char}

lemma IsBlank.leads {s : List Char} (h : IsBlank s) : Leads outside s outside := by
  refine leads_outside fun c hc => ⟨Or.inl (h c hc), ?_⟩
  rintro rfl
  cases h _ hc

/-- A whole text begins and ends outside of strings. -/
lemma IsText.leads (h : IsText v n t) : Leads outside t outside := by
  obtain ⟨rest, hspells, hrest⟩ := h
  obtain ⟨u, rfl, hu⟩ := hspells.leads
  exact hu.append hrest.leads

/-- **An object that stands inside of a string** has no member with a name that has a letter of
another kind than those few. -/
theorem IsText.has_eq_false {ms : List (String × Value)} {q : Quoting} (h : IsText (.object ms) n t)
    (hinside : Leads inside t q) {name : String} {c : Char} (hc : c ∈ name.toList)
    (hbare : ¬Bare c) : Assoc.has ms name = false := by
  have hall := bare_of_leads (Or.inl ⟨rfl, rfl⟩) h.leads hinside
  obtain ⟨rest, hspells, -⟩ := h
  by_contra hhas
  have hname : name ∈ (Part.value (.object ms)).names :=
    Assoc.has_iff.1 (Bool.of_not_eq_false hhas)
  rcases hspells.exists_mem hname with hslash | hletters
  · exact (hall _ hslash).ne_slash rfl
  · exact hbare (hall c (hletters c hc))

end Json

end ScarbCrates
