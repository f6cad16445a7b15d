import ScarbCrates.Proofs.Query.Memoization

/-!
# Histories of a session

A session is asked questions, its results are dropped, and its world changes, in any order.  All
that it remembers was right once, in a world that it has been in.  Where a result is determined by
the files that it has reported, it is then right whenever it is used.

* `Family` — one computation for each question, in each world.
* `Session.Remembers` — what is true at any time between two requests.
* `Session.Remembers.ask_spec` — one request at such a time.
* `Family.request_after` — any history, and a request at its end.
-/

namespace ScarbCrates

variable {κ σ V ε : Type}

/-- One computation for each question, as the world of now has it. -/
abbrev Family (κ σ V ε : Type) := World σ → Question κ → Computation κ σ V ε V

/-! ## What a session remembers -/

/-- **All that a session remembers was right once:** between two requests nothing is under way, and
every stored result is the answer to its question in some world that has been visited. -/
structure Session.Remembers (prog : Family κ σ V ε) (visited : World σ → Prop)
    (s : Session κ σ V) : Prop where
  frames : s.frames = []
  held : s.cache.held = []
  entries : ∀ x ∈ s.cache.entries, ∃ w, visited w ∧ x.2.ProducedBy (prog w) w x.1

/-- Among some worlds, a tracked answer is determined by the digests that it has reported, wherever
its question may be asked. -/
def Family.DeterminedOn (prog : Family κ σ V ε) (visited : World σ → Prop)
    (asked : Question κ → World σ → Prop) : Prop :=
  ∀ w w' q (e : Entry V), visited w → asked q w' → e.ProducedBy (prog w) w q →
    e.untracked = false → e.digests.Holds w'.disk →
    (prog w' q).answer w' = .ok (e.value, e.tally)

/-- A world is always determined by its own digests. -/
lemma Family.determinedOn_eq (prog : Family κ σ V ε) (w : World σ) :
    prog.DeterminedOn (· = w) fun _ => (· = w) := by
  rintro w₁ w₂ q e rfl rfl hp _ _
  exact hp.answer

lemma Cache.not_mem_invalidate_high [DecidableEq κ] (c : Cache κ V) (x : Question κ × Entry V) :
    x ∉ (c.invalidate .high).1.entries := by
  intro hx
  have hkept := List.of_mem_filter hx
  cases hd : x.2.durability <;> simp [hd, Durability.atMost, Durability.level] at hkept

namespace Session

variable {prog : Family κ σ V ε} {visited : World σ → Prop} {asked : Question κ → World σ → Prop}
  {s : Session κ σ V}

lemma remembers_start (prog : Family κ σ V ε) (visited : World σ → Prop) (w : World σ) :
    (start w : Session κ σ V).Remembers prog visited :=
  ⟨rfl, rfl, fun _ hx => absurd hx List.not_mem_nil⟩

lemma Remembers.agrees (h : s.Remembers prog visited) (hdet : prog.DeterminedOn visited asked)
    {q : Question κ} (hasked : asked q s.world) {e : Entry V}
    (he : (q, e) ∈ s.cache.entries) (hc : e.NoCollision s.world.disk) :
    e.Agrees (prog s.world) s.world q := by
  obtain ⟨w, hw, hp⟩ := h.entries _ he
  obtain ⟨b, hb⟩ := Entry.exists_isFresh hp.sealed s.world.disk
  refine ⟨b, hb, ?_⟩
  rintro rfl
  obtain ⟨hu, hholds⟩ := Entry.holds_of_isFresh hp.sealed hc hb
  exact hdet w s.world q e hw hasked hp hu hholds

lemma Remembers.mono {among : World σ → Prop} (h : s.Remembers prog visited)
    (hsub : ∀ w, visited w → among w) : s.Remembers prog among :=
  ⟨h.frames, h.held, fun x hx => (h.entries x hx).imp fun w hw => ⟨hsub w hw.1, hw.2⟩⟩

lemma Remembers.change (h : s.Remembers prog visited) (w : World σ) :
    Remembers prog visited { s with world := w } :=
  ⟨h.frames, h.held, h.entries⟩

lemma Remembers.clear [DecidableEq κ] (h : s.Remembers prog visited) :
    (s.withCache Cache.clear).Remembers prog visited :=
  ⟨h.frames, h.held, fun _ hx => absurd hx List.not_mem_nil⟩

lemma Remembers.invalidate [DecidableEq κ] (h : s.Remembers prog visited) (level : Durability) :
    (s.withCache fun c => (c.invalidate level).1).Remembers prog visited :=
  ⟨h.frames, h.held, fun x hx => h.entries x (List.mem_of_mem_filter hx)⟩

variable [DecidableEq κ] [QueryKey κ]

/-- **One request:** it has the answer that it has without a cache, and the session goes on
remembering what is right. -/
theorem Remembers.ask_spec (h : s.Remembers prog visited) (hv : visited s.world)
    (near : World σ → Prop) (hnear : near s.world) (hdisk : ∀ w, near w → w.disk = s.world.disk)
    (hsteady : ∀ q, (prog s.world q).Steady (prog s.world) near)
    (hdet : prog.DeterminedOn visited asked) (q : Question κ)
    (hasks : ∀ q', (Computation.ask q (prog s.world q)).Asks s.world q' → asked q' s.world)
    (hc : ∀ q', (Computation.ask q (prog s.world q)).Asks s.world q' →
      ∀ e, (q', e) ∈ s.cache.entries → e.NoCollision s.world.disk) :
    let out := run (Computation.ask q (prog s.world q)) s
    out.1 = ((prog s.world q).answer s.world).map Prod.fst ∧
      out.2.Remembers prog visited ∧ near out.2.world ∧
      ∀ v t, (prog s.world q).answer s.world = .ok (v, t) →
        ∃ e : Entry V, out.2.cache.entry? q = some e ∧ e.value = v ∧ e.tally = t := by
  have hbody : ∀ s₁ : Session κ σ V, s₁.frames = Frame.start q :: s.frames →
      s₁.world = s.world → s₁.cache.entries = s.cache.entries →
      s₁.cache.held = q :: s.cache.held →
      Ran (prog s.world) near s.world (prog s.world q) (Frame.start q) s.frames s₁
        (run (prog s.world q) s₁) := fun s₁ hf₁ hw₁ he₁ hh₁ => by
    refine run_spec hsteady hnear hdisk (hsteady q) (hw₁ ▸ hnear) hf₁ (fun q' hq' => ?_)
      fun q' hq' e he => h.agrees hdet (hasks q' (Or.inr (Or.inl hq'))) (he₁ ▸ he)
        (hc q' (Or.inr (Or.inl hq')) e (he₁ ▸ he))
    rw [hh₁, h.held, List.mem_singleton]
    rintro rfl
    exact Computation.not_asks_self hsteady hnear q' hq'
  have hserve := serve_spec (run (prog s.world q)) hnear rfl
    (h.held ▸ List.not_mem_nil)
    (fun e he => h.agrees hdet (hasks q (Or.inl rfl)) he (hc q (Or.inl rfl) e he)) hbody
  rw [run_ask]
  generalize s.serve (s.cache.storedGeneration q) q (run (prog s.world q)) = out at hserve ⊢
  obtain ⟨r, s'⟩ := out
  obtain ⟨hev, hcase⟩ := hserve
  have hentries : ∀ x ∈ s'.cache.entries, ∃ w, visited w ∧ x.2.ProducedBy (prog w) w x.1 :=
    fun x hx => (hev.entries x hx).elim (h.entries x) fun hp => ⟨s.world, hv, hp⟩
  have hheld : s'.cache.held = [] := hev.held.trans h.held
  rcases hcase with ⟨f, hans, rfl, hframes⟩ | ⟨e, hans, rfl, hframes, hstored⟩
  · rw [hans]
    exact ⟨rfl, ⟨hframes.trans h.frames, hheld, hentries⟩, hev.world, fun v t ht => nomatch ht⟩
  · rw [hans]
    have hnone : s'.frames = [] := by
      rw [hframes, withFrame, h.frames]
    refine ⟨rfl, ⟨hnone, hheld, hentries⟩, hev.world, fun v t ht => ?_⟩
    cases ht
    exact ⟨e, hstored, rfl, rfl⟩

end Session

/-! ## Histories -/

/-- What happens to a session: a request, the loss of results, or a change of the world. -/
inductive Event (κ σ : Type)
  | request (q : Question κ)
  | invalidate (level : Durability)
  | clear
  | change (w : World σ)

namespace Family

variable [DecidableEq κ] [QueryKey κ] (prog : Family κ σ V ε)

/-- A request for a question, with the computation that the world of now has for it. -/
def request (s : Session κ σ V) (q : Question κ) : Except (Failure ε) V × Session κ σ V :=
  Session.run (Computation.ask q (prog s.world q)) s

/-- A request to a session that has no results. -/
def cold (w : World σ) (q : Question κ) : Except (Failure ε) V × Session κ σ V :=
  prog.request (Session.start w) q

/-- A session after an event. -/
def happen (s : Session κ σ V) : Event κ σ → Session κ σ V
  | .request q => (prog.request s q).2
  | .invalidate level => s.withCache fun c => (c.invalidate level).1
  | .clear => s.withCache Cache.clear
  | .change w => { s with world := w }

/-- **A session after some events,** in their order. -/
def after (s : Session κ σ V) (events : List (Event κ σ)) : Session κ σ V :=
  events.foldl prog.happen s

/-- All computations of the family are functions of the world: they see the world of now, leave it
as it is, and ask each other by their questions. -/
def Observing : Prop := ∀ w q, (prog w q).Steady (prog w) (· = w)

/-- **A completed run that has read nothing untracked is determined by its digests:** any world that
has the digests that it has reported, or inherited, yields the same run. -/
def Determined : Prop :=
  ∀ w w' q e, (prog.cold w q).2.cache.entry? q = some e → e.untracked = false →
    e.digests.Holds w'.disk →
    ∃ e', (prog.cold w' q).2.cache.entry? q = some e' ∧ e'.value = e.value ∧ e'.tally = e.tally

/-- Where an event is a request, the fingerprints that it may compare do not collide. -/
def Discerning (s : Session κ σ V) : Event κ σ → Prop
  | .request q => ∀ q', (Computation.ask q (prog s.world q)).Asks s.world q' →
      ∀ e, (q', e) ∈ s.cache.entries → e.NoCollision s.world.disk
  | _ => True

/-- No fingerprints that are compared in the course of some events collide. -/
def DiscerningAll (s : Session κ σ V) : List (Event κ σ) → Prop
  | [] => True
  | event :: rest => prog.Discerning s event ∧ DiscerningAll (prog.happen s event) rest

variable {prog}

/-- A request to a session that has no results gives the answer without a cache, and stores it. -/
lemma cold_spec (hp : prog.Observing) (w : World σ) (q : Question κ) :
    (prog.cold w q).1 = ((prog w q).answer w).map Prod.fst ∧
      (∀ v t, (prog w q).answer w = .ok (v, t) →
        ∃ e : Entry V, (prog.cold w q).2.cache.entry? q = some e ∧ e.value = v ∧ e.tally = t) ∧
      ∀ e, (prog.cold w q).2.cache.entry? q = some e →
        (prog w q).answer w = .ok (e.value, e.tally) := by
  have h := (Session.remembers_start prog (· = w) w).ask_spec rfl (· = w) rfl
    (fun _ h => h ▸ rfl) (hp w) (determinedOn_eq prog w) q (fun _ _ => rfl)
    fun _ _ _ he => absurd he List.not_mem_nil
  obtain ⟨hresult, hrem, _, hstored⟩ := h
  refine ⟨hresult, hstored, fun e he => ?_⟩
  obtain ⟨_, rfl, hprod⟩ := hrem.entries _ (Assoc.mem_of_get? he)
  exact hprod.answer

lemma Determined.determinedOn (hp : prog.Observing) (hd : prog.Determined) :
    prog.DeterminedOn (fun _ => True) fun _ _ => True := by
  intro w w' q e _ _ hprod hu hholds
  obtain ⟨e₀, he₀, hv, ht⟩ := (cold_spec hp w q).2.1 _ _ hprod.answer
  have hu₀ : e₀.untracked = false := (congrArg Tally.untracked ht).trans hu
  have hd₀ : e₀.digests = e.digests := congrArg Tally.digests ht
  obtain ⟨e₁, he₁, hv₁, ht₁⟩ := hd w w' q e₀ he₀ hu₀ (hd₀ ▸ hholds)
  rw [(cold_spec hp w' q).2.2 e₁ he₁, hv₁, ht₁, hv, ht]

/-- One event, whatever it is, leaves a session that remembers what was right. -/
lemma remembers_happen (hp : prog.Observing) (hd : prog.Determined) {s : Session κ σ V}
    (h : s.Remembers prog fun _ => True) {event : Event κ σ} (hc : prog.Discerning s event) :
    (prog.happen s event).Remembers prog fun _ => True := by
  cases event with
  | request q =>
      exact (h.ask_spec trivial (· = s.world) rfl (fun _ h => h ▸ rfl) (hp s.world)
        (hd.determinedOn hp) q (fun _ _ => trivial) hc).2.1
  | invalidate level => exact h.invalidate level
  | clear => exact h.clear
  | change w => exact h.change w

lemma remembers_after (hp : prog.Observing) (hd : prog.Determined) :
    ∀ {s : Session κ σ V} {events : List (Event κ σ)}, s.Remembers prog (fun _ => True) →
      prog.DiscerningAll s events → (prog.after s events).Remembers prog fun _ => True := by
  intro s events
  induction events generalizing s with
  | nil => exact fun h _ => h
  | cons event rest ih => exact fun h hc => ih (remembers_happen hp hd h hc.1) hc.2

lemma discerningAll_append {s : Session κ σ V} {events rest : List (Event κ σ)} :
    prog.DiscerningAll s (events ++ rest) ↔
      prog.DiscerningAll s events ∧ prog.DiscerningAll (prog.after s events) rest := by
  induction events generalizing s with
  | nil => exact ⟨fun h => ⟨trivial, h⟩, fun h => h.2⟩
  | cons event more ih =>
      show _ ∧ prog.DiscerningAll _ (more ++ rest) ↔ (_ ∧ _) ∧ _
      rw [ih, and_assoc]
      rfl

end Family

/-! ## A family about files -/

instance : QueryKey Path := ⟨Path.shown⟩

namespace Family

/-- The digest of a file, which the computation reports. -/
def digestOf (p : Path) : Computation Path Unit (Option String) Empty (Option String) :=
  .declare p fun
    | .error f => .fail f
    | .ok () =>
      .perform (fun w => ⟨((Digests.ofFile w.disk p).run.value, w), []⟩) fun r =>
        Computation.ofExcept (r.mapError fun fault => .input (.access fault))

/-- Two questions about a file: its digest, and whatever the first question is answered with. -/
def fileDigest : Family Path Unit (Option String) Empty := fun _ q =>
  if q.query = "digest" then digestOf q.key
  else Computation.ask ⟨"digest", q.key⟩ (digestOf q.key)

lemma observing_fileDigest : fileDigest.Observing := by
  have hleaf : ∀ w p, (digestOf p).Steady (fileDigest w) (· = w) := by
    rintro w p (f | _)
    · trivial
    · refine ⟨(Digests.ofFile w.disk p).run.value, ?_, ?_⟩
      · rintro w' rfl
        exact ⟨rfl, rfl⟩
      · cases (Digests.ofFile w.disk p).run.value <;> trivial
  intro w q
  rw [fileDigest]
  split
  · exact hleaf w q.key
  · refine ⟨(if_pos rfl).symm, ?_⟩
    rintro (f | v) <;> trivial

lemma answer_fileDigest (w : World Unit) (q : Question Path) :
    (fileDigest w q).answer w =
      match (Digests.ofFile w.disk q.key).run.value with
      | .error fault => .error (.input (.access fault))
      | .ok digest => Computation.settled (.ok digest, ⟨[(q.key, digest)], false⟩) := by
  have hleaf : (fileDigest w q).answer w = (digestOf q.key).answer w := by
    rw [fileDigest]
    split
    · rfl
    · exact Computation.answer_ask w _ _
  have hv : (Digests.declare w.disk Tally.start.digests q.key).run.value =
      (Digests.ofFile w.disk q.key).run.value.map fun digest => [(q.key, digest)] :=
    Digests.declare_value w.disk [] q.key
  rw [hleaf, Computation.answer, digestOf]
  cases hf : (Digests.ofFile w.disk q.key).run.value with
  | error fault =>
      rw [hf] at hv
      simp only [Computation.eval, hv]
      rfl
  | ok digest =>
      rw [hf] at hv
      simp only [Computation.eval, hv, hf]
      rfl

/-- An answer is what the world has for the file, and reports just that. -/
lemma of_answer_fileDigest {w : World Unit} {q : Question Path} {v : Option String} {t : Tally}
    (h : (fileDigest w q).answer w = .ok (v, t)) :
    (Digests.ofFile w.disk q.key).run.value = .ok v ∧ t = ⟨[(q.key, v)], false⟩ := by
  rw [answer_fileDigest] at h
  split at h
  · simp at h
  · rename_i digest hf
    have hsettled := (Computation.settled_eq_ok h).1
    simp only [Prod.mk.injEq, Except.ok.injEq] at hsettled
    rw [hf, ← hsettled.1, ← hsettled.2]
    exact ⟨rfl, rfl⟩

lemma determined_fileDigest : fileDigest.Determined := by
  intro w w' q e he _ hholds
  have hans := (cold_spec observing_fileDigest w q).2.2 e he
  obtain ⟨hfile, ht⟩ := of_answer_fileDigest hans
  have hd : e.digests = [(q.key, e.value)] := congrArg Tally.digests ht
  have hfile' := hholds (q.key, e.value) (hd ▸ List.mem_singleton.2 rfl)
  have hans' : (fileDigest w' q).answer w' = .ok (e.value, e.tally) := by
    rw [← hans, answer_fileDigest, answer_fileDigest, hfile, hfile']
  exact (cold_spec observing_fileDigest w' q).2.1 _ _ hans'

end Family

namespace Family

variable [DecidableEq κ] [QueryKey κ] {prog : Family κ σ V ε}

/-- **Memoization is transparent.**  After any history of requests, lost results and changes of the
world, a request gives what it gives in a session that has no results. -/
theorem request_after (hp : prog.Observing) (hd : prog.Determined) (w : World σ)
    (events : List (Event κ σ)) (q : Question κ)
    (hc : prog.DiscerningAll (Session.start w) (events ++ [.request q])) :
    (prog.request (prog.after (Session.start w) events) q).1 =
      (prog.cold (prog.after (Session.start w) events).world q).1 := by
  obtain ⟨hc, hq, -⟩ := discerningAll_append.1 hc
  have hrem := remembers_after hp hd (Session.remembers_start prog _ w) hc
  rw [(cold_spec hp _ q).1]
  exact (hrem.ask_spec trivial (· = _) rfl (fun _ h => h ▸ rfl) (hp _) (hd.determinedOn hp) q
    (fun _ _ => trivial) hq).1

end Family

/-- The file that the example is about. -/
def sampleName : Name := ⟨[0x61], by decide, by decide, by decide⟩

/-- A file that the example is not about. -/
def otherName : Name := ⟨[0x62], by decide, by decide, by decide⟩

/-- A result for a question about the first file is used again after a write to the other one; when
all results have been dropped the first file itself may change. -/
theorem request_after_writes :
    let q : Question Path := ⟨"digest", ⟨.single, [sampleName]⟩⟩
    let copy : Question Path := ⟨"copy", ⟨.single, [sampleName]⟩⟩
    let w : World Unit := ⟨⟨.empty, .top⟩, ()⟩
    let events : List (Event Path Unit) :=
      [.request copy, .change (w.write [otherName] (.file [] true)), .request q,
        .invalidate .high, .change (w.write [sampleName] (.file [0x63] true))]
    let s := Family.fileDigest.after (Session.start w) events
    (Family.fileDigest.request s copy).1 = (Family.fileDigest.cold s.world copy).1 := by
  intro q copy w events
  have hp := Family.observing_fileDigest
  have hfirst := (Session.remembers_start Family.fileDigest (· = w) w).ask_spec rfl (· = w) rfl
    (fun _ h => h ▸ rfl) (hp w) (Family.determinedOn_eq _ w) copy (fun _ _ => rfl)
    fun _ _ _ he => absurd he List.not_mem_nil
  refine Family.request_after hp Family.determined_fileDigest w events copy ⟨?_, trivial, ?_,
    trivial, trivial, ?_, trivial⟩
  · exact fun _ _ _ he => absurd he List.not_mem_nil
  · intro q' hq e he
    obtain ⟨w', rfl, hprod⟩ := hfirst.2.1.entries _ he
    have hq' : q' = q := by
      rcases hq with hq | ⟨r, hq⟩ | ⟨r, hq⟩
      · exact hq
      · cases r with
        | error f => exact hq.elim
        | ok u => exact (Computation.not_asks_ofExcept _ hq).elim
      · exact (Computation.not_asks_ofExcept _ hq).elim
    subst hq'
    obtain ⟨hfile, ht⟩ := Family.of_answer_fileDigest hprod.answer
    have hd : e.digests = [(q.key, e.value)] := congrArg Tally.digests ht
    refine Entry.NoCollision.of_holds hprod.sealed.nodup fun x hx => ?_
    rw [hd, List.mem_singleton] at hx
    subst hx
    exact hfile
  · intro q' _ e he
    exact absurd he (Cache.not_mem_invalidate_high _ _)

end ScarbCrates
