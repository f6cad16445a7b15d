import ScarbCrates.Proofs.Database.Deriving
import ScarbCrates.Proofs.Query.History

/-!
# A warm database agrees with a cold one

A database that has answered requests, while files were written and removed between them, answers
the next request like one that has answered nothing.  Scarb is taken for a program that leaves the
files alone and whose documents are determined by the files that are tracked for them.

* `Database.queries` — the computations of all questions about projects that may be asked about.
* `Database.Calm` — what is asked of Scarb and of the source files, for each project in the worlds
  in which it is asked about.
* `Database.respond_after` — any history, and a request at its end.
-/

namespace ScarbCrates

namespace Toolchain

variable {t : Toolchain} {w w' : World Machine} {p : Path}

/-- The outcome of a run: it needs an executable and a directory to start in, and then Scarb is the
judge. -/
lemma outcome_eq (t : Toolchain) (p : Path) (w : World Machine) :
    (t.metadata p w).value.1 =
      match t.executable, startDirectory w.disk p with
      | .error fault, _ => .error fault
      | .ok _, .error fault =>
        .error (.command ToolchainFault.notStartedCode fault.message [])
      | .ok executable, .ok directory =>
        judge (w.outside.behaviour ⟨words executable p, directory⟩ w.disk.files).2 := by
  rw [metadata]
  cases t.executable with
  | error fault => rfl
  | ok executable =>
      simp only [Noted.value_bind]
      cases startDirectory w.disk p <;> rfl

/-- Which processes have been started before does not matter to a run. -/
lemma metadata_congr (hd : w'.disk = w.disk) (hb : w'.outside.behaviour = w.outside.behaviour) :
    (t.metadata p w').value.1 = (t.metadata p w).value.1 ∧
      (t.metadata p w').value.2.disk = (t.metadata p w).value.2.disk := by
  obtain ⟨d, b, started⟩ := w
  obtain ⟨d', b', started'⟩ := w'
  cases hd
  cases hb
  rw [metadata, metadata]
  cases t.executable with
  | error fault => exact ⟨rfl, rfl⟩
  | ok executable =>
      simp only [Noted.value_bind]
      cases startDirectory d p <;> exact ⟨rfl, rfl⟩

/-- A run leaves the programs as they are, and changes the files as the program does. -/
lemma world_metadata (t : Toolchain) (p : Path) (w : World Machine) :
    (t.metadata p w).value.2.outside.behaviour = w.outside.behaviour ∧
      ((t.metadata p w).value.2.disk = w.disk ∨ ∃ c : Command,
        (t.metadata p w).value.2.disk =
          { w.disk with files := (w.outside.behaviour c w.disk.files).1 }) := by
  rw [metadata]
  cases t.executable with
  | error fault => exact ⟨rfl, Or.inl rfl⟩
  | ok executable =>
      simp only [Noted.value_bind]
      cases startDirectory w.disk p with
      | error fault => exact ⟨rfl, Or.inl rfl⟩
      | ok directory => exact ⟨rfl, Or.inr ⟨_, rfl⟩⟩

end Toolchain

namespace Database

open ScarbCrates.Computation

/-! ## The computations -/

open scoped Classical in
/-- The computation of every question about a project, in the worlds in which the project is asked
about.  Elsewhere there is nothing to compute. -/
noncomputable def queries (t : Toolchain) (asked : Manifest → World Machine → Prop) :
    Family Subject Machine Answer ProjectFault := fun w q =>
  match q.key with
  | .project m =>
    if asked m w then
      if q.query = cratesQuery then computeCrates t m else computeMetadata t m
    else .fail .deadlock
  | .named _ => .fail .deadlock

section Queries

variable {t : Toolchain} {asked : Manifest → World Machine → Prop} {w : World Machine}
  {m : Manifest}

lemma queries_metadata (h : asked m w) :
    queries t asked w ⟨metadataQuery, .project m⟩ = computeMetadata t m := by
  simp only [queries, if_pos h]
  exact if_neg (show metadataQuery ≠ cratesQuery by decide)

lemma queries_crates (h : asked m w) :
    queries t asked w ⟨cratesQuery, .project m⟩ = computeCrates t m := by
  simp only [queries, if_pos h, if_true]

/-- A question that has an answer is about a project, and the project is asked about. -/
lemma exists_asked_of_answer {q : Question Subject} {out : Answer × Tally}
    (h : (queries t asked w q).answer w = .ok out) : ∃ m, q.key = .project m ∧ asked m w := by
  simp only [queries] at h
  split at h
  · rename_i m hkey
    by_cases ha : asked m w
    · exact ⟨m, hkey, ha⟩
    · rw [if_neg ha] at h
      cases h
  · cases h

/-- Answers that were right where few projects were asked about are right where more are. -/
lemma remembers_mono {among : Manifest → World Machine → Prop} {visited : World Machine → Prop}
    {s : State} (h : s.Remembers (queries t among) visited)
    (hsub : ∀ m w, among m w → asked m w) : s.Remembers (queries t asked) visited := by
  refine ⟨h.frames, h.held, fun x hx => ?_⟩
  obtain ⟨w, hw, hp⟩ := h.entries x hx
  obtain ⟨m, hkey, ha⟩ := exists_asked_of_answer hp.answer
  have hsame : queries t asked w x.1 = queries t among w x.1 := by
    simp only [queries, hkey, if_pos ha, if_pos (hsub m w ha)]
  exact ⟨w, hw, hsame ▸ hp.answer, hp.fingerprint⟩

end Queries

/-- A request to the database. -/
inductive Request
  | metadata (m : Manifest)
  | crates (m : Manifest)

namespace Request

/-- The request as a query, whose answer is what the database returns. -/
def ask (t : Toolchain) : Request → Query Answer
  | .metadata m => do
    let fetched ← Database.metadata t m
    return .metadata fetched
  | .crates m => do
    let cs ← Database.crates t m
    return .crates cs

/-- The project that a request is about. -/
def project : Request → Manifest
  | .metadata m => m
  | .crates m => m

/-- The question that is asked first. -/
def question : Request → Question Subject
  | .metadata m => ⟨metadataQuery, .project m⟩
  | .crates m => ⟨cratesQuery, .project m⟩

/-- All questions whose stored answers a request may use. -/
def consulted : Request → List (Question Subject)
  | .metadata m => [⟨metadataQuery, .project m⟩]
  | .crates m => [⟨cratesQuery, .project m⟩, ⟨metadataQuery, .project m⟩]

/-- A request consults answers about its own project only. -/
lemma key_of_mem_consulted {r : Request} {q : Question Subject} (h : q ∈ r.consulted) :
    q.key = .project r.project := by
  cases r with
  | metadata m =>
      obtain rfl := List.mem_singleton.1 h
      rfl
  | crates m =>
      simp only [consulted, List.mem_cons, List.not_mem_nil, or_false] at h
      obtain rfl | rfl := h <;> rfl

/-- What the database returns of an answer. -/
def read : Request → Answer → Answer
  | .metadata _, a => .metadata a.metadata?
  | .crates _, a => .crates a.crateList

end Request

lemma run_ask_request {t : Toolchain} {asked : Manifest → World Machine → Prop} {r : Request}
    {s : State} (h : asked r.project s.world) : Session.run (r.ask t) s =
      ((Session.run (Computation.ask r.question (queries t asked s.world r.question)) s).1.map
          r.read,
        (Session.run (Computation.ask r.question (queries t asked s.world r.question)) s).2) := by
  cases r with
  | metadata m =>
      simp only [Request.ask, Request.question, queries_metadata (m := m) h, metadata,
        Session.run_bind]
      rcases Session.run _ s with ⟨_ | a, s'⟩ <;> rfl
  | crates m =>
      simp only [Request.ask, Request.question, queries_crates (m := m) h, crates, Session.run_bind]
      rcases Session.run _ s with ⟨_ | a, s'⟩ <;> rfl

/-! ## What the computations ask -/

section Asks

variable {t : Toolchain} {w : World Machine} {q : Question Subject}

lemma asks_metadata {m : Manifest} (h : (metadata t m).Asks w q) :
    q = ⟨metadataQuery, .project m⟩ := by
  rcases asks_of_bind h with (h | h | ⟨r, h⟩) | ⟨_, h⟩
  · exact h
  · exact ((solitary_computeMetadata t m).not_asks h).elim
  · exact (not_asks_ofExcept r h).elim
  · exact h.elim

lemma asks_computeCrates {m : Manifest} (h : (computeCrates t m).Asks w q) :
    q = ⟨metadataQuery, .project m⟩ := by
  rcases asks_of_bind h with h | ⟨r, h⟩
  · exact asks_metadata h
  · cases r with
    | none => exact h.elim
    | some doc =>
        rcases asks_of_bind h with h | ⟨_, h⟩
        · rcases asks_of_bind h with h | ⟨r, h⟩
          · exact h.elim
          · exact (not_asks_ofExcept _ h).elim
        · exact h.elim

/-- A request asks no question but those that it consults. -/
lemma consulted_of_asks {asked : Manifest → World Machine → Prop} {r : Request}
    (ha : asked r.project w)
    (h : (Computation.ask r.question (queries t asked w r.question)).Asks w q) :
    q ∈ r.consulted := by
  cases r with
  | metadata m =>
      rw [Request.question, queries_metadata (m := m) ha] at h
      rcases h with h | h | ⟨r, h⟩
      · exact h ▸ List.mem_cons_self
      · exact ((solitary_computeMetadata t m).not_asks h).elim
      · exact (not_asks_ofExcept r h).elim
  | crates m =>
      rw [Request.question, queries_crates (m := m) ha] at h
      rcases h with h | h | ⟨r, h⟩
      · exact h ▸ List.mem_cons_self
      · exact asks_computeCrates h ▸ List.mem_cons_of_mem _ List.mem_cons_self
      · exact (not_asks_ofExcept r h).elim

end Asks

/-! ## What the computations see -/

/-- The worlds in which a computation finds itself while the files stay as they are: processes may
have been started. -/
def near (w w' : World Machine) : Prop :=
  w'.disk = w.disk ∧ w'.outside.behaviour = w.outside.behaviour

section Steady

variable {t : Toolchain} {w : World Machine} {P : Question Subject → Query Answer}

lemma steady_ofExcept {α : Type} {W : World Machine → Prop} (r : Except (Failure ProjectFault) α) :
    (ofExcept r : Query α).Steady P W := by
  cases r <;> trivial

lemma steady_note {W : World Machine → Prop} (level : Level) (origin message : String) :
    (note level origin message : Query Unit).Steady P W :=
  ⟨(), fun _ hw => ⟨rfl, hw⟩, trivial⟩

lemma steady_reportFiles {W : World Machine → Prop} (ps : List Path) :
    (reportFiles ps).Steady P W := by
  induction ps with
  | nil => trivial
  | cons p rest ih => exact Steady.bind (c := reportFile p) steady_ofExcept fun _ => ih

lemma steady_settleFetch {W : World Machine → Prop} (p : Path)
    (outcome : Except ToolchainFault Metadata) : (settleFetch p outcome).Steady P W := by
  cases outcome with
  | error fault =>
      rw [settleFetch]
      cases fault.process? with
      | some fault => trivial
      | none =>
          exact Steady.bind (c := reportUntracked) trivial fun _ =>
            (steady_note _ _ _).bind fun _ => trivial
  | ok m => exact (steady_reportFiles _).bind fun _ => trivial

/-- For a project, Scarb leaves the files alone in all worlds that are near one. -/
def QuietNear (t : Toolchain) (w : World Machine) (m : Manifest) : Prop :=
  ∀ p, m = .scarb p → ∀ w', near w w' → (t.metadata p w').value.2.disk = w'.disk

/-- Scarb runs alike in all worlds that are near one in which it leaves the files alone. -/
lemma steady_fetch {m : Manifest} (hquiet : QuietNear t w m) : (fetch t m).Steady P (near w) := by
  cases m with
  | cairoProject p => exact (steady_note _ _ _).bind fun _ => trivial
  | scarb p =>
      rw [fetch]
      refine Steady.bind (c := reportFile p) steady_ofExcept fun _ => ?_
      split
      · trivial
      · rename_i lock _
        refine Steady.bind (c := reportFile lock) steady_ofExcept fun _ => ?_
        refine Steady.bind (c := reportSynthetic .low) trivial fun _ => ?_
        refine Steady.bind (c := act (t.metadata p)) ?_ fun _ => steady_settleFetch p _
        refine ⟨(t.metadata p w).value.1, fun w' hw => ?_, trivial⟩
        exact ⟨(Toolchain.metadata_congr hw.1 hw.2).1, (hquiet p rfl w' hw).trans hw.1,
          (Toolchain.world_metadata t p w').1.trans hw.2⟩

lemma steady_derive (doc : Metadata) : (derive doc).Steady P (near w) := by
  refine Steady.bind ⟨(Derivation.crates w.disk doc).run.value, fun w' hw => ?_, trivial⟩ fun _ =>
    steady_ofExcept _
  exact ⟨hw.1 ▸ rfl, hw⟩

/-- **All questions have steady computations,** as long as Scarb leaves the files alone. -/
lemma steady_queries {asked : Manifest → World Machine → Prop}
    (hquiet : ∀ m, asked m w → QuietNear t w m) (q : Question Subject) :
    (queries t asked w q).Steady (queries t asked w) (near w) := by
  simp only [queries]
  split
  · rename_i m _
    by_cases ha : asked m w
    · rw [if_pos ha]
      split
      · have hask : (metadata t m).Steady (queries t asked w) (near w) :=
          Steady.bind ⟨(queries_metadata ha).symm, steady_ofExcept⟩ fun _ => trivial
        refine hask.bind fun fetched => ?_
        cases fetched with
        | none => trivial
        | some doc => exact (steady_derive doc).bind fun _ => trivial
      · exact (steady_fetch (hquiet m ha)).bind fun _ => trivial
    · rw [if_neg ha]
      trivial
  · trivial

end Steady

/-! ## What is asked of the surroundings -/

/-- The files have the same digests on two disks. -/
def SameDigests (d d' : Disk) (ps : List Path) : Prop :=
  ∀ p ∈ ps, (Digests.ofFile d' p).run.value = (Digests.ofFile d p).run.value

/-- **Calm surroundings:** in the worlds in which a project is asked about, a run of Scarb for it
changes no file; whenever the run gives a document, it gives the same one wherever the files that
are tracked for the document have the same digests; and the source files of the document fare alike
in all of these worlds. -/
structure Calm (t : Toolchain) (asked : Manifest → World Machine → Prop) : Prop where
  quiet : ∀ w p, asked (.scarb p) w → (t.metadata p w).value.2.disk = w.disk
  reproducible : ∀ w w' p lock m, asked (.scarb p) w → asked (.scarb p) w' →
    Manifest.lockPath? p = some lock → (t.metadata p w).value.1 = .ok m →
    SameDigests w.disk w'.disk (tracked p lock m) → (t.metadata p w').value.1 = .ok m
  checks : ∀ w w' p m, asked (.scarb p) w → asked (.scarb p) w' →
    (t.metadata p w).value.1 = .ok m → Derivation.SameChecks w.disk w'.disk m

lemma Calm.mono {t : Toolchain} {asked among : Manifest → World Machine → Prop} (h : Calm t asked)
    (hsub : ∀ m w, among m w → asked m w) : Calm t among where
  quiet w p hw := h.quiet w p (hsub _ w hw)
  reproducible w w' p lock m hw hw' := h.reproducible w w' p lock m (hsub _ w hw) (hsub _ w' hw')
  checks w w' p m hw hw' := h.checks w w' p m (hsub _ w hw) (hsub _ w' hw')

section Calm

variable {t : Toolchain} {w w' : World Machine} {m : Manifest}
  {asked : Manifest → World Machine → Prop}

lemma Calm.quietNear (hc : Calm t asked) (hw : asked m w) : QuietNear t w m := by
  rintro p rfl w' hw'
  exact ((Toolchain.metadata_congr hw'.1 hw'.2).2.trans (hc.quiet w p hw)).trans hw'.1.symm

/-- Where a project is asked about, the evaluation of its metadata query is its course. -/
lemma eval_computeMetadata (hc : Calm t asked) (hw : asked m w) (q : Question Subject) :
    (computeMetadata t m).eval w .start =
      (((fetch t m).solo (Frame.start q) w).1.map Answer.metadata,
        ((fetch t m).solo (Frame.start q) w).2.1.tally) := by
  have hsteady : (computeMetadata t m).Steady (queries t asked w) (near w) :=
    (steady_fetch (hc.quietNear hw)).bind fun _ => trivial
  have hnear : near w w := ⟨rfl, rfl⟩
  have heval := eval_eq_solo (fun _ h => h.1) hnear (solitary_computeMetadata t m) hsteady
    (Frame.start q) hnear
  rwa [solo_computeMetadata] at heval

/-- A tracked answer of a Scarb project is a document. -/
lemma exists_fetched {p : Path} (hc : Calm t asked) (hw : asked (.scarb p) w) {a : Answer}
    {u : Tally} (h : (computeMetadata t (.scarb p)).eval w .start = (.ok a, u))
    (hu : u.untracked = false) :
    ∃ lock m before after, Fetched t w p lock m before after ∧ a = .metadata (some m) ∧
      u = ⟨after, false⟩ := by
  let q : Question Subject := ⟨metadataQuery, .project (.scarb p)⟩
  rw [eval_computeMetadata hc hw q] at h
  rcases fetch_cases t w p q with ⟨e, f', w', hf, _⟩ | ⟨lock, fault, ds, _, hf⟩ |
    ⟨lock, m, before, after, hfetched, hf⟩
  · simp [hf, Except.map] at h
  · rw [hf, Prod.mk.injEq] at h
    rw [← h.2] at hu
    simp [Frame.tally] at hu
  · rw [hf, Prod.mk.injEq] at h
    exact ⟨lock, m, before, after, hfetched, (Except.ok.inj h.1).symm, h.2.symm⟩

/-- The digests of a document, all of one disk, decide whether it can be fetched on another. -/
lemma Fetched.of_holds {p lock : Path} (hc : Calm t asked) (hw : asked (.scarb p) w)
    (hw' : asked (.scarb p) w') {m : Metadata} {before after : Digests}
    (h : Fetched t w p lock m before after) (hds : after.Holds w.disk)
    (hds' : after.Holds w'.disk) : Fetched t w' p lock m before after := by
  have hsame : SameDigests w.disk w'.disk (tracked p lock m) := by
    intro g hg
    obtain ⟨e, he, rfl⟩ := List.mem_map.1 ((h.mem_files g).2 hg)
    rw [hds e he, hds' e he]
  have hbefore : before.Holds w'.disk := by
    obtain ⟨more, rfl, _⟩ := Digests.declareAll_spec h.members
    exact fun e he => hds' e (List.mem_append_left _ he)
  refine ⟨h.beside, hc.reproducible w w' p lock m hw hw' h.beside h.outcome hsame,
    Digests.declareAll_of_holds h.first hbefore, ?_⟩
  rw [hc.quiet w' p hw']
  exact Digests.declareAll_of_holds h.members hds'

/-- A tracked answer to the metadata query is determined by its digests. -/
lemma answer_metadata_of_holds (hc : Calm t asked) (hw : asked m w) (hw' : asked m w')
    {a : Answer} {u : Tally} (h : (computeMetadata t m).answer w = .ok (a, u))
    (hu : u.untracked = false) (hds : u.digests.Holds w'.disk) :
    (computeMetadata t m).answer w' = .ok (a, u) := by
  cases m with
  | cairoProject p => exact h
  | scarb p =>
      have heval := (settled_eq_ok h).1
      obtain ⟨lock, doc, before, after, hf, rfl, rfl⟩ := exists_fetched hc hw heval hu
      have hf' := hf.of_holds hc hw hw' (accurate_of_answer h).holds hds
      have heval' : (computeMetadata t (.scarb p)).eval w' .start =
          (.ok (.metadata (some doc)), ⟨after, false⟩) := by
        rw [eval_computeMetadata hc hw' ⟨metadataQuery, .project (.scarb p)⟩, hf'.solo_fetch]
        rfl
      rw [← h, answer, answer, heval, heval']

/-- A tracked answer with a document is one that Scarb has given. -/
lemma outcome_of_answer (hc : Calm t asked) (hw : asked m w) {a : Answer} {u : Tally}
    {doc : Metadata} (h : (computeMetadata t m).answer w = .ok (a, u))
    (hu : u.untracked = false) (ha : a.metadata? = some doc) :
    ∃ p, m = .scarb p ∧ (t.metadata p w).value.1 = .ok doc := by
  have heval := (settled_eq_ok h).1
  cases m with
  | cairoProject p =>
      have hnone : Answer.metadata none = a := Except.ok.inj (congrArg Prod.fst heval)
      rw [← hnone] at ha
      simp [Answer.metadata?] at ha
  | scarb p =>
      obtain ⟨lock, doc', before, after, hf, rfl, rfl⟩ := exists_fetched hc hw heval hu
      cases ha
      exact ⟨p, rfl, hf.outcome⟩

lemma answer_crates_of_holds (hc : Calm t asked) (hw : asked m w) (hw' : asked m w')
    {a : Answer} {u : Tally} (h : (computeCrates t m).answer w = .ok (a, u))
    (hu : u.untracked = false) (hds : u.digests.Holds w'.disk) :
    (computeCrates t m).answer w' = .ok (a, u) := by
  have heval := (settled_eq_ok h).1
  rw [eval_computeCrates] at heval
  cases hm : (computeMetadata t m).answer w with
  | error f => simp [hm] at heval
  | ok out =>
      obtain ⟨b, u'⟩ := out
      rw [hm] at heval
      obtain rfl : u' = u := congrArg Prod.snd heval
      have hm' := answer_metadata_of_holds hc hw hw' hm hu hds
      have hcrates : cratesOf w'.disk b.metadata? = cratesOf w.disk b.metadata? := by
        cases hdoc : b.metadata? with
        | none => rfl
        | some doc =>
            obtain ⟨p, rfl, houtcome⟩ := outcome_of_answer hc hw hm hu hdoc
            have hsame := hc.checks w w' p doc hw hw' houtcome
            rw [cratesOf, cratesOf, Derivation.crates_congr hsame]
      rw [← h, answer, answer, eval_computeCrates, eval_computeCrates, hm, hm']
      simp only [hcrates]

/-- **In calm surroundings every tracked answer is determined by its digests,** wherever its project
is asked about. -/
lemma determinedOn_queries (hc : Calm t asked) : (queries t asked).DeterminedOn (fun _ => True)
    fun q w => ∀ m, q.key = .project m → asked m w := by
  intro w w' q e _ hasked hp hu hds
  have hans := hp.answer
  obtain ⟨m, hkey, hw⟩ := exists_asked_of_answer hans
  have hw' := hasked m hkey
  simp only [queries, hkey, if_pos hw] at hans
  simp only [queries, hkey, if_pos hw']
  by_cases hq : q.query = cratesQuery
  · rw [if_pos hq] at hans ⊢
    exact answer_crates_of_holds hc hw hw' hans hu hds
  · rw [if_neg hq] at hans ⊢
    exact answer_metadata_of_holds hc hw hw' hans hu hds

end Calm

/-! ## Histories -/

/-- What happens to a database: a request, a write, a removal, or the loss of answers. -/
inductive Event
  | request (r : Request)
  | write (l : Location) (n : Node)
  | remove (l : Location)
  | invalidate (level : Durability)

/-- A database after an event. -/
def happen (t : Toolchain) (s : State) : Event → State
  | .request r => (Session.run (r.ask t) s).2
  | .write l n => { s with world := s.world.write l n }
  | .remove l => { s with world := s.world.remove l }
  | .invalidate level => s.withCache fun c => (c.invalidate level).1

lemma happen_request (t : Toolchain) (s : State) (r : Request) :
    happen t s (.request r) = (Session.run (r.ask t) s).2 := rfl

/-- **A database after some events,** in their order. -/
def after (t : Toolchain) (s : State) (events : List Event) : State := events.foldl (happen t) s

/-- The worlds with the programs and the working directory of one, and with files that are of some
kind for a project. -/
def amid (w₀ : World Machine) (F : Manifest → FileTree → Prop) (m : Manifest)
    (w : World Machine) : Prop :=
  w.outside.behaviour = w₀.outside.behaviour ∧ w.disk.directory = w₀.disk.directory ∧
    F m w.disk.files

/-- Where an event is a request, the files are of the kind for its project, and no fingerprints that
it compares collide. -/
def Admissible (F : Manifest → FileTree → Prop) (s : State) : Event → Prop
  | .request r => F r.project s.world.disk.files ∧
      ∀ q ∈ r.consulted, ∀ e, (q, e) ∈ s.cache.entries → e.NoCollision s.world.disk
  | _ => True

/-- All events are admissible in their turn. -/
def AdmissibleAll (t : Toolchain) (F : Manifest → FileTree → Prop) (s : State) :
    List Event → Prop
  | [] => True
  | event :: rest => Admissible F s event ∧ AdmissibleAll t F (happen t s event) rest

lemma AdmissibleAll.cons {t : Toolchain} {F : Manifest → FileTree → Prop} {s : State}
    {event : Event} {rest : List Event} (h : Admissible F s event)
    (hrest : AdmissibleAll t F (happen t s event) rest) : AdmissibleAll t F s (event :: rest) :=
  ⟨h, hrest⟩

section History

variable {t : Toolchain} {w₀ : World Machine} {F : Manifest → FileTree → Prop} {s : State}

lemma amid_of_near {w w' : World Machine} {m : Manifest} (h : near w w') (hw : amid w₀ F m w) :
    amid w₀ F m w' :=
  ⟨h.2.trans hw.1, h.1 ▸ hw.2.1, h.1 ▸ hw.2.2⟩

/-- A request in calm surroundings: it has the answer that it has without a cache. -/
lemma ask_request_spec {asked : Manifest → World Machine → Prop} (hc : Calm t asked)
    (hs : s.Remembers (queries t asked) fun _ => True) {r : Request}
    (hw : asked r.project s.world)
    (hr : ∀ q ∈ r.consulted, ∀ e, (q, e) ∈ s.cache.entries → e.NoCollision s.world.disk) :
    (Session.run (r.ask t) s).1 =
        (((queries t asked s.world r.question).answer s.world).map Prod.fst).map r.read ∧
      (Session.run (r.ask t) s).2.Remembers (queries t asked) (fun _ => True) ∧
      near s.world (Session.run (r.ask t) s).2.world := by
  have hproject : ∀ q ∈ r.consulted, ∀ m, q.key = .project m → asked m s.world := by
    intro q hq m hm
    obtain rfl := Subject.project.inj ((Request.key_of_mem_consulted hq).symm.trans hm)
    exact hw
  have h := hs.ask_spec trivial (near s.world) ⟨rfl, rfl⟩ (fun _ h => h.1)
    (steady_queries fun m hm => hc.quietNear hm) (determinedOn_queries hc) r.question
    (fun q hq => hproject q (consulted_of_asks hw hq))
    fun q hq e he => hr q (consulted_of_asks hw hq) e he
  rw [run_ask_request hw]
  exact ⟨congrArg (Except.map r.read) h.1, h.2.1, h.2.2.1⟩

/-- What is true of a database between two events. -/
structure Steadfast (t : Toolchain) (w₀ : World Machine) (F : Manifest → FileTree → Prop)
    (s : State) : Prop where
  remembers : s.Remembers (queries t (amid w₀ F)) fun _ => True
  behaviour : s.world.outside.behaviour = w₀.outside.behaviour
  directory : s.world.disk.directory = w₀.disk.directory

lemma Steadfast.happen (h : Steadfast t w₀ F s) (hc : Calm t (amid w₀ F)) {event : Event}
    (ha : Admissible F s event) : Steadfast t w₀ F (Database.happen t s event) := by
  cases event with
  | request r =>
      have hw : amid w₀ F r.project s.world := ⟨h.behaviour, h.directory, ha.1⟩
      obtain ⟨-, hrem, hdisk, hbehaviour⟩ := ask_request_spec hc h.remembers hw ha.2
      exact ⟨hrem, hbehaviour.trans h.behaviour, (congrArg Disk.directory hdisk).trans h.directory⟩
  | write l n => exact ⟨h.remembers.change _, h.behaviour, h.directory⟩
  | remove l => exact ⟨h.remembers.change _, h.behaviour, h.directory⟩
  | invalidate level => exact ⟨h.remembers.invalidate level, h.behaviour, h.directory⟩

lemma Steadfast.after (hc : Calm t (amid w₀ F)) {events rest : List Event}
    (h : Steadfast t w₀ F s) (ha : AdmissibleAll t F s (events ++ rest)) :
    Steadfast t w₀ F (Database.after t s events) ∧
      AdmissibleAll t F (Database.after t s events) rest := by
  induction events generalizing s with
  | nil => exact ⟨h, ha⟩
  | cons event more ih => exact ih (h.happen hc ha.1) ha.2

/-- **A warm database agrees with a cold one.**  After any history of requests, writes, removals
and lost answers, a request returns what a database returns that has answered nothing.  The files
of kind `F m` are those with which the project `m` is asked about; nothing is required of a project
with other files, nor of a project that nobody asks about. -/
theorem respond_after (t : Toolchain) (w₀ : World Machine) (F : Manifest → FileTree → Prop)
    (hc : Calm t (amid w₀ F)) (events : List Event) (r : Request)
    (ha : AdmissibleAll t F (start w₀) (events ++ [.request r])) :
    (Session.run (r.ask t) (after t (start w₀) events)).1 =
      (Session.run (r.ask t) (start (after t (start w₀) events).world)).1 := by
  have hstart : Steadfast t w₀ F (start w₀) := ⟨Session.remembers_start _ _ _, rfl, rfl⟩
  obtain ⟨h, hr, -⟩ := hstart.after hc ha
  have hw : amid w₀ F r.project (after t (start w₀) events).world :=
    ⟨h.behaviour, h.directory, hr.1⟩
  have hwarm := ask_request_spec hc h.remembers hw hr.2
  have hcold := ask_request_spec (s := start (after t (start w₀) events).world) (r := r) hc
    (Session.remembers_start _ _ _) hw fun _ _ _ he => absurd he List.not_mem_nil
  exact hwarm.1.trans hcold.1.symm

end History

/-! ## A small workspace -/

/-- The name of the only source file. -/
def sourceName : Name := ⟨[0x73], by decide, by decide, by decide⟩

/-- A file in the directory `/`. -/
def topFile (n : Name) : Path := ⟨.single, [n]⟩

/-- A document with one member and one component. -/
def sampleDocument : Json.Value :=
  .object [("version", .int 1),
    ("workspace", .object [("manifest_path", .text "/a"), ("root", .text "/"),
      ("members", .array [.text "m"])]),
    ("packages", .array [.object [("id", .text "m"), ("name", .text "m"), ("version", .text "1"),
      ("manifest_path", .text "/b"), ("root", .text "/")]]),
    ("compilation_units", .array [.object [("id", .text "u"), ("package", .text "m"),
      ("target", .object [("kind", .text "lib"), ("name", .text "m"), ("source_path", .text "/s")]),
      ("components", .array [.object [("package", .text "m"), ("name", .text "m"),
        ("source_path", .text "/s")]])]])]

/-- The end of a process that prints the document. -/
def sampleEnding : Ending := .exited 0 (String.ofList sampleDocument.compact) ""

/-- The command that asks for the metadata of `/a`. -/
def sampleCommand : Command := ⟨Toolchain.words "scarb" (topFile sampleName), some .top⟩

/-- A program that prints the document for one command and fails for all others. -/
def sampleBehaviour : Behaviour := fun c files =>
  (files, if c = sampleCommand then sampleEnding else .exited 1 "" "")

/-- A toolchain with a configured executable. -/
def sampleToolchain : Toolchain := ⟨some "scarb", [], none⟩

/-- Nothing but the source file. -/
def sampleFiles : FileTree := FileTree.empty.write [sourceName] (.file [] true)

/-- The world at the beginning. -/
def sampleWorld : World Machine := ⟨⟨sampleFiles, .top⟩, ⟨sampleBehaviour, []⟩⟩

/-- The source file and an unrelated file. -/
def moreFiles : FileTree := sampleFiles.write [Manifest.scarbToml] (.file [] true)

/-- The same, with the manifest of the member. -/
def memberFiles : FileTree := moreFiles.write [otherName] (.file [0x63] true)

/-- The files that the example comes across. -/
def SampleFiles (files : FileTree) : Prop :=
  files = sampleFiles ∨ files = moreFiles ∨ files = memberFiles

/-- The worlds that the example comes across. -/
def SampleWorlds (w : World Machine) : Prop :=
  w.outside.behaviour = sampleBehaviour ∧ w.disk.directory = .top ∧ SampleFiles w.disk.files

/-- The project of the sample manifest. -/
def sampleProject : Manifest := .scarb (topFile sampleName)

/-- The sample project is asked about with some files, and all others with any. -/
def AskedWith (F : FileTree → Prop) (m : Manifest) (files : FileTree) : Prop :=
  m = sampleProject → F files

/-- What a document says about sources and members. -/
def outline (m : Metadata) : List (Path × String) × List Path :=
  (m.compilationUnits.flatMap fun unit => unit.components.map fun c => (c.sourcePath, c.name),
    memberManifests m)

lemma outline_sampleEnding :
    (Toolchain.judge sampleEnding).toOption.map outline =
      some ([(topFile sourceName, "m")], [topFile otherName]) := by
  rw [sampleEnding, Toolchain.judge, Scan.ofText, String.toList_ofList]
  decide +kernel

lemma eq_ok_of_toOption {ε α : Type} {x : Except ε α} {a : α} (h : x.toOption = some a) :
    x = .ok a := by
  cases x with
  | error fault => cases h
  | ok b => rw [Option.some.inj h]

lemma judge_sampleEnding :
    ∃ m, Toolchain.judge sampleEnding = .ok m ∧
      (m.compilationUnits.flatMap fun unit => unit.components.map fun c => (c.sourcePath, c.name)) =
        [(topFile sourceName, "m")] ∧
      m.memberPackages.map (·.manifestPath) = [topFile otherName] := by
  obtain ⟨m, hm, h⟩ := Option.map_eq_some_iff.1 outline_sampleEnding
  exact ⟨m, eq_ok_of_toOption hm, Prod.mk.inj h⟩

section Sample

variable {w : World Machine} (hw : SampleWorlds w)

include hw in
/-- On all of these files a run starts in `/`, and the source file is accepted. -/
lemma of_sampleWorlds :
    Toolchain.startDirectory w.disk (topFile sampleName) = .ok (some .top) ∧
      SourceRoot.check w.disk (topFile sourceName) "m" = .ok (.ok ⟨.top, "s"⟩) := by
  have key : ∀ files, SampleFiles files →
      Toolchain.startDirectory ⟨files, .top⟩ (topFile sampleName) = .ok (some .top) ∧
        SourceRoot.check ⟨files, .top⟩ (topFile sourceName) "m" = .ok (.ok ⟨.top, "s"⟩) := by
    rintro files (rfl | rfl | rfl) <;> exact ⟨by decide +kernel, by decide +kernel⟩
  have hdisk : w.disk = ⟨w.disk.files, .top⟩ := by
    rw [show Path.top = w.disk.directory from hw.2.1.symm]
  rw [hdisk]
  exact key _ hw.2.2

/-- Scarb gives a document for the sample manifest only, and always the same. -/
lemma outcome_sample (hb : w.outside.behaviour = sampleBehaviour) {p : Path} {m : Metadata}
    (h : (sampleToolchain.metadata p w).value.1 = .ok m) :
    p = topFile sampleName ∧ Toolchain.judge sampleEnding = .ok m := by
  have hexe : sampleToolchain.executable = .ok "scarb" := rfl
  rw [Toolchain.outcome_eq, hexe, hb] at h
  cases hd : Toolchain.startDirectory w.disk p with
  | error fault => simp [hd] at h
  | ok directory =>
      simp only [hd] at h
      by_cases hc : Command.mk (Toolchain.words "scarb" p) directory = sampleCommand
      · have hwords := congrArg Command.words hc
        simp only [Toolchain.words, sampleCommand, List.cons.injEq, and_true, true_and] at hwords
        refine ⟨Path.text_injective hwords, ?_⟩
        rw [hc] at h
        exact h
      · have hb : sampleBehaviour ⟨Toolchain.words "scarb" p, directory⟩ w.disk.files =
            (w.disk.files, .exited 1 "" "") := by
          show (_, ite _ _ _) = _
          rw [if_neg hc]
        rw [hb] at h
        simp [Toolchain.judge] at h

include hw in
lemma outcome_sampleManifest :
    (sampleToolchain.metadata (topFile sampleName) w).value.1 = Toolchain.judge sampleEnding := by
  have hexe : sampleToolchain.executable = .ok "scarb" := rfl
  have hending : (sampleBehaviour sampleCommand w.disk.files).2 = sampleEnding := by
    simp [sampleBehaviour]
  rw [Toolchain.outcome_eq, hexe, hw.1, (of_sampleWorlds hw).1]
  exact congrArg Toolchain.judge hending

end Sample

lemma calm_sample : Calm sampleToolchain (amid sampleWorld (AskedWith SampleFiles)) where
  quiet w p hw := by
    rcases (Toolchain.world_metadata sampleToolchain p w).2 with h | ⟨c, h⟩
    · exact h
    · rw [h, hw.1]
      rfl
  reproducible w w' p lock m hw hw' _ h _ := by
    obtain ⟨rfl, hm⟩ := outcome_sample hw.1 h
    exact (outcome_sampleManifest ⟨hw'.1, hw'.2.1, hw'.2.2 rfl⟩).trans hm
  checks w w' p m hw hw' h unit hunit c hc := by
    obtain ⟨rfl, hm⟩ := outcome_sample hw.1 h
    obtain ⟨m', hm', hsources, _⟩ := judge_sampleEnding
    obtain rfl : m' = m := Except.ok.inj (hm'.symm.trans hm)
    have hmem : (c.sourcePath, c.name) ∈ [(topFile sourceName, "m")] :=
      hsources ▸ List.mem_flatMap.2 ⟨unit, hunit, List.mem_map.2 ⟨c, hc, rfl⟩⟩
    obtain ⟨hpath, hname⟩ := Prod.mk.inj (List.mem_singleton.1 hmem)
    rw [hpath, hname, (of_sampleWorlds ⟨hw.1, hw.2.1, hw.2.2 rfl⟩).2,
      (of_sampleWorlds ⟨hw'.1, hw'.2.1, hw'.2.2 rfl⟩).2]

/-- The tracked files of the sample project, all of them missing. -/
def missingFiles : Digests :=
  [(topFile sampleName, none), (topFile Manifest.scarbLock, none), (topFile otherName, none)]

/-- The worlds in which the projects are asked about, the sample project with some files. -/
abbrev sampled (F : FileTree → Prop) : Manifest → World Machine → Prop :=
  amid sampleWorld (AskedWith F)

lemma sampled_mono {F G : FileTree → Prop} (h : ∀ files, F files → G files) (m : Manifest)
    (w : World Machine) (hw : sampled F m w) : sampled G m w :=
  ⟨hw.1, hw.2.1, fun hm => h _ (hw.2.2 hm)⟩

/-- An answer to the metadata query depends on these files, as long as they are missing. -/
lemma digests_sample {w : World Machine} {e : Entry Answer}
    (h : e.ProducedBy (queries sampleToolchain (sampled (· = sampleFiles)) w) w
      ⟨metadataQuery, .project sampleProject⟩) : e.digests = missingFiles := by
  obtain ⟨_, ⟨rfl⟩, hw⟩ := exists_asked_of_answer h.answer
  obtain ⟨m, hm, -, hmembers⟩ := judge_sampleEnding
  have hfiles : w.disk.files = sampleFiles := hw.2.2 rfl
  have hdisk : w.disk = ⟨sampleFiles, .top⟩ := by
    rw [← hfiles, show Path.top = w.disk.directory from hw.2.1.symm]
  have houtcome := outcome_sampleManifest (w := w) ⟨hw.1, hw.2.1, Or.inl hfiles⟩
  have hasked : sampled SampleFiles sampleProject w := sampled_mono (fun _ => Or.inl) _ w hw
  have hquiet : (sampleToolchain.metadata (topFile sampleName) w).value.2.disk = w.disk :=
    calm_sample.quiet w _ hasked
  have hf : Fetched sampleToolchain w (topFile sampleName) (topFile Manifest.scarbLock) m
      (missingFiles.take 2) missingFiles := by
    refine ⟨rfl, houtcome.trans hm, ?_, ?_⟩
    · rw [hdisk]
      decide +kernel
    · rw [memberManifests, hmembers, hquiet, hdisk]
      decide +kernel
  have hans := h.answer
  rw [queries_metadata hw] at hans
  have heval := eval_computeMetadata calm_sample hasked ⟨metadataQuery, .project sampleProject⟩
  rw [sampleProject, hf.solo_fetch] at heval
  have htally := congrArg Prod.snd (heval.symm.trans (settled_eq_ok hans).1)
  exact (congrArg Tally.digests htally).symm

/-- A later part of the history below, from a database that remembers what was right with the first
files. -/
lemma admissible_sample {s : State}
    (hrem : s.Remembers (queries sampleToolchain (sampled (· = sampleFiles))) fun _ => True)
    (hs : sampled (· = sampleFiles) sampleProject s.world) :
    AdmissibleAll sampleToolchain (AskedWith SampleFiles) s
      [.write [Manifest.scarbToml] (.file [] true), .request (.metadata sampleProject),
        .invalidate .high, .write [otherName] (.file [0x63] true),
        .request (.crates sampleProject)] := by
  have hfiles : (s.world.write [Manifest.scarbToml] (.file [] true)).disk.files = moreFiles := by
    show s.world.disk.files.write _ _ = _
    rw [hs.2.2 rfl]
    rfl
  have hw : sampled SampleFiles sampleProject
      (s.world.write [Manifest.scarbToml] (.file [] true)) :=
    ⟨hs.1, hs.2.1, fun _ => Or.inr (Or.inl hfiles)⟩
  have hdisk : (s.world.write [Manifest.scarbToml] (.file [] true)).disk = ⟨moreFiles, .top⟩ := by
    rw [← hfiles, show Path.top = s.world.disk.directory from hs.2.1.symm]
    rfl
  have hmissing : missingFiles.Holds ⟨moreFiles, .top⟩ := by
    have hall : ∀ e ∈ missingFiles,
        (Digests.ofFile ⟨moreFiles, .top⟩ e.1).run.value = .ok e.2 := by decide +kernel
    exact hall
  have hfresh : ∀ q ∈ (Request.metadata sampleProject).consulted, ∀ e,
      (q, e) ∈ s.cache.entries →
        e.NoCollision (s.world.write [Manifest.scarbToml] (.file [] true)).disk := by
    intro q hq e he
    obtain rfl := List.mem_singleton.1 hq
    obtain ⟨w, -, hp⟩ := hrem.entries _ he
    refine Entry.NoCollision.of_holds hp.sealed.nodup ?_
    rw [digests_sample hp, hdisk]
    exact hmissing
  obtain ⟨-, -, hdisk', -⟩ := ask_request_spec calm_sample (r := .metadata sampleProject)
    (s := { s with world := s.world.write [Manifest.scarbToml] (.file [] true) })
    ((remembers_mono hrem (sampled_mono fun _ => Or.inl)).change _) hw hfresh
  refine ⟨trivial, ⟨hw.2.2, hfresh⟩, trivial, trivial, ⟨fun _ => Or.inr (Or.inr ?_),
    fun q _ e he => absurd he (Cache.not_mem_invalidate_high _ _)⟩, trivial⟩
  exact congrArg (fun d : Disk => d.files.write [otherName] (.file [0x63] true))
    (hdisk'.trans hdisk)

/-- No files at all, and the sample program. -/
def emptyWorld : World Machine := ⟨⟨.empty, .top⟩, ⟨sampleBehaviour, []⟩⟩

/-- All of the history below but its first event, from a database that has answered nothing about
the sample project. -/
lemma admissible_appearing {s : State}
    (hrem : s.Remembers (queries sampleToolchain (sampled fun _ => False)) fun _ => True)
    (hs : near emptyWorld s.world) :
    AdmissibleAll sampleToolchain (AskedWith SampleFiles) s
      [.write [sourceName] (.file [] true), .request (.crates sampleProject),
        .write [Manifest.scarbToml] (.file [] true), .request (.metadata sampleProject),
        .invalidate .high, .write [otherName] (.file [0x63] true),
        .request (.crates sampleProject)] := by
  let s' : State := { s with world := s.world.write [sourceName] (.file [] true) }
  have hnone : ∀ q ∈ (Request.crates sampleProject).consulted, ∀ e,
      (q, e) ∈ s'.cache.entries → e.NoCollision s'.world.disk := by
    intro q hq e he
    obtain ⟨w, -, hp⟩ := hrem.entries _ he
    obtain ⟨m, hkey, hm⟩ := exists_asked_of_answer hp.answer
    have hproject : q.key = .project sampleProject := Request.key_of_mem_consulted hq
    exact (hm.2.2 (Subject.project.inj (hkey.symm.trans hproject))).elim
  have hhere : sampled (· = sampleFiles) sampleProject s'.world := by
    have hdirectory : s.world.disk.directory = .top := congrArg Disk.directory hs.1
    refine ⟨hs.2, hdirectory, fun _ => ?_⟩
    exact congrArg (fun d : Disk => d.files.write [sourceName] (.file [] true)) hs.1
  have hrem' : s'.Remembers (queries sampleToolchain (sampled (· = sampleFiles))) fun _ => True :=
    (remembers_mono hrem (sampled_mono fun _ => False.elim)).change _
  obtain ⟨-, hrem'', hnear⟩ := ask_request_spec
    (calm_sample.mono (sampled_mono fun _ => Or.inl)) hrem' (r := .crates sampleProject) hhere hnone
  exact .cons trivial (.cons ⟨fun _ => Or.inl (hhere.2.2 rfl), hnone⟩
    (admissible_sample hrem'' (amid_of_near hnear hhere)))

/-- A project that is not the sample project. -/
def strangeProject : Manifest := .scarb (topFile otherName)

/-- The source file appears after a request about a project that it does not belong to.  Then crates
are used again after a write to an unrelated file; when all answers have been dropped, the manifest
of a member may change. -/
theorem respond_after_writes :
    let events : List Event :=
      [.request (.crates strangeProject), .write [sourceName] (.file [] true),
        .request (.crates sampleProject), .write [Manifest.scarbToml] (.file [] true),
        .request (.metadata sampleProject), .invalidate .high,
        .write [otherName] (.file [0x63] true)]
    let s := after sampleToolchain (start emptyWorld) events
    (Session.run ((Request.crates sampleProject).ask sampleToolchain) s).1 =
      (Session.run ((Request.crates sampleProject).ask sampleToolchain) (start s.world)).1 := by
  intro events
  have hstrange : strangeProject ≠ sampleProject := by decide
  have hnone : ∀ q ∈ (Request.crates strangeProject).consulted, ∀ e,
      (q, e) ∈ (start emptyWorld).cache.entries → e.NoCollision emptyWorld.disk :=
    fun _ _ _ he => absurd he List.not_mem_nil
  have hw : sampled (fun _ => False) strangeProject emptyWorld :=
    ⟨rfl, rfl, fun h => absurd h hstrange⟩
  obtain ⟨-, hrem, hnear⟩ := ask_request_spec
    (calm_sample.mono (sampled_mono fun _ => False.elim))
    (Session.remembers_start _ _ emptyWorld) (r := .crates strangeProject) hw hnone
  have hrest := admissible_appearing hrem hnear
  rw [← happen_request] at hrest
  exact respond_after sampleToolchain emptyWorld (AskedWith SampleFiles) calm_sample events
    (.crates sampleProject) (.cons ⟨fun h => absurd h hstrange, hnone⟩ hrest)

end Database

end ScarbCrates
