import ScarbCrates.Proofs.Threads.Alone
import ScarbCrates.Proofs.Threads.Records

/-!
# What a session does, step by step

Whatever a computation does in a session is done in steps of one thread, and the questions that it
asks are the ones that are asked in these steps.  This holds of whole computations, and of the
sessions that they go through on the way.

* `Session.Finding` — the four ways in which a result is found.
* `Session.begins`, `Session.asked` — where a computation begins, and the questions that are asked.
* `Session.run_leads` — a whole computation in steps.
* `Session.Visits`, `Session.Visits.exists_course` — and the part of one that is over.
-/

namespace ScarbCrates

namespace Session

variable {κ σ V ε α : Type} [DecidableEq κ] [QueryKey κ]

/-! ## Finding a result -/

/-- What is done with a session to compute a value. -/
abbrev Body (κ σ V ε : Type) : Type := Session κ σ V → Except (Failure ε) V × Session κ σ V

/-- **The four ways in which a result is found,** by a caller who has seen generation `seen`.  Only
in the last one the computation is run, and only once. -/
inductive Finding (s : Session κ σ V) (seen : Nat) (q : Question κ) : Prop
  /-- There is a newer result than the one that was seen. -/
  | shared {e : Entry V} (he : s.cache.entry? q = some e) (hgen : e.generation ≠ seen)
      (h : ∀ {ε : Type} (body : Body κ σ V ε),
        s.obtain seen q body = (.ok e, s.withCache (·.record .shared)))
  /-- The stored result is fresh. -/
  | fresh {e : Entry V} {ns : List Notice} (he : s.cache.entry? q = some e)
      (hgen : e.generation = seen) (hfresh : (e.isFresh s.world.disk).run.value = .ok true)
      (h : ∀ {ε : Type} (body : Body κ σ V ε),
        s.obtain seen q body = (.ok e, (s.withNotices ns).withCache (·.record .hit)))
  /-- Whether the stored result is fresh cannot be told. -/
  | unclear {e : Entry V} {fault : InputFault} {ns : List Notice} (he : s.cache.entry? q = some e)
      (hgen : e.generation = seen) (hfault : (e.isFresh s.world.disk).run.value = .error fault)
      (h : ∀ {ε : Type} (body : Body κ σ V ε),
        s.obtain seen q body = (.error (.input fault), s.withNotices ns))
  /-- There is no result, or it is stale. -/
  | stale {ns : List Notice}
      (hstale : ∀ e, s.cache.entry? q = some e →
        e.generation = seen ∧ (e.isFresh s.world.disk).run.value = .ok false)
      (h : ∀ {ε : Type} (body : Body κ σ V ε), s.obtain seen q body =
        (s.withNotices ns).closed q (body ((s.withNotices ns).opened q)))

lemma finding (s : Session κ σ V) (seen : Nat) (q : Question κ) : s.Finding seen q := by
  cases he : s.cache.entry? q with
  | none =>
      have h : ∀ {ε : Type} (body : Body κ σ V ε), s.obtain seen q body =
          (s.withNotices []).closed q (body ((s.withNotices []).opened q)) := fun body => by
        rw [obtain, he, ← compute_eq, withNotices, List.append_nil]
      refine .stale (fun e he' => ?_) h
      rw [he] at he'
      cases he'
  | some e =>
      by_cases hgen : e.generation = seen
      · have hseen : ¬e.generation ≠ seen := not_not_intro hgen
        cases hv : (e.isFresh s.world.disk).run.value with
        | error fault =>
            have h : ∀ {ε : Type} (body : Body κ σ V ε), s.obtain seen q body =
                (.error (.input fault), s.withNotices (e.isFresh s.world.disk).run.notices) :=
              fun body => by
                rw [obtain, he]
                simp only [if_neg hseen, noted, hv]
            exact .unclear he hgen hv h
        | ok fresh =>
            cases fresh with
            | true =>
                have h : ∀ {ε : Type} (body : Body κ σ V ε), s.obtain seen q body =
                    (.ok e, (s.withNotices (e.isFresh s.world.disk).run.notices).withCache
                      (·.record .hit)) := fun body => by
                  rw [obtain, he]
                  simp only [if_neg hseen, noted, hv]
                exact .fresh he hgen hv h
            | false =>
                have h : ∀ {ε : Type} (body : Body κ σ V ε), s.obtain seen q body =
                    (s.withNotices (e.isFresh s.world.disk).run.notices).closed q
                      (body ((s.withNotices (e.isFresh s.world.disk).run.notices).opened q)) :=
                  fun body => by
                    rw [obtain, he]
                    simp only [if_neg hseen, noted, hv]
                    exact compute_eq _ q body
                refine .stale (fun e' he' => ?_) h
                obtain rfl := Option.some.inj (he.symm.trans he')
                exact ⟨hgen, hv⟩
      · refine .shared he hgen fun body => ?_
        rw [obtain, he]
        simp only [ne_eq, hgen, not_false_eq_true, if_true]

/-- Where the computation of a question begins, if looking for its result begins one: the session
that a computation is given which fails at once and says what it has been given. -/
def opening (s : Session κ σ V) (seen : Nat) (q : Question κ) : Option (Session κ σ V) :=
  match (s.obtain seen q fun s₀ => (.error (.raised s₀), s₀)).1 with
  | .error (.raised s₀) => some s₀
  | _ => none

/-- **Where the computation of a question begins,** if asking it begins one. -/
def begins (s : Session κ σ V) (q : Question κ) : Option (Session κ σ V) :=
  match (s.serve (s.cache.storedGeneration q) q fun s₀ => (.error (.raised s₀), s₀)).1 with
  | .error (.raised s₀) => some s₀
  | _ => none

lemma begins_eq {s : Session κ σ V} {q : Question κ} (hheld : q ∉ s.cache.held) :
    s.begins q = (s.locked q).opening (s.cache.storedGeneration q) q := by
  rw [begins, serve_eq hheld, opening]
  rcases (s.locked q).obtain _ q _ with ⟨(_ | _ | _) | _, _⟩ <;> rfl

/-- A question whose computation is under way would wait for itself. -/
lemma serve_of_held {s : Session κ σ V} {q : Question κ} (hheld : q ∈ s.cache.held) (seen : Nat)
    (body : Body κ σ V ε) :
    s.serve seen q body = (.error .deadlock, s.withCache (·.ensureLock q)) := by
  have hlocked : (s.withCache (·.ensureLock q)).cache.isHeld q = true := by
    rw [Cache.isHeld, decide_eq_true_iff]
    show q ∈ (s.cache.ensureLock q).held
    rwa [held_ensureLock]
  simp only [serve, if_pos hlocked]

lemma begins_of_held {s : Session κ σ V} {q : Question κ} (hheld : q ∈ s.cache.held) :
    s.begins q = none := by
  rw [begins, serve_of_held hheld]

/-- It makes no difference if the lock of the question has been handed out before. -/
lemma serve_ensureLock (s : Session κ σ V) (seen : Nat) (q : Question κ) (body : Body κ σ V ε) :
    (s.withCache (·.ensureLock q)).serve seen q body = s.serve seen q body := by
  have hsame := withCache_ensureLock_of_mem (s := s.withCache (·.ensureLock q))
    (s.cache.mem_locks_ensureLock q)
  simp only [serve, hsame]

omit [QueryKey κ] in
lemma locked_ensureLock (s : Session κ σ V) (q : Question κ) :
    (s.withCache (·.ensureLock q)).locked q = s.locked q := by
  have hsame := withCache_ensureLock_of_mem (s := s.withCache (·.ensureLock q))
    (s.cache.mem_locks_ensureLock q)
  rw [locked, hsame, locked]

/-! ## The questions that are asked -/

/-- **The questions that a computation asks,** in order, with those that are asked when an answer is
computed; and whether each of them is being computed already. -/
def asked : {α : Type} → Computation κ σ V ε α → Session κ σ V → List (Question κ × Bool)
  | _, .done _, _ => []
  | _, .fail _, _ => []
  | _, .declare p next, s =>
    let (r, s) := s.declare p
    asked (next r) s
  | _, .lower level next, s => asked next (s.withFrame (·.lower level))
  | _, .untracked next, s => asked next (s.withFrame Frame.markUntracked)
  | _, .request q body next, s =>
    let inner := match s.begins q with
      | none => []
      | some s₀ => asked body s₀
    let held := s.cache.isHeld q
    let (r, s) := s.serve (s.cache.storedGeneration q) q (run body)
    (q, held) :: (inner ++ asked (next r) s)
  | _, .invalidate level next, s =>
    let (cache, n) := s.cache.invalidate level
    asked (next n) { s with cache := cache }
  | _, .clear next, s => asked next (s.withCache Cache.clear)
  | _, .inspect next, s => asked (next s) s
  | _, .perform act next, s =>
    let ((b, world), s) := s.noted (act s.world)
    asked (next b) { s with world := world }

end Session

/-! ## Computations in steps -/

variable {κ σ V ε α : Type}

/-- The computations under way are the same, but the innermost one may have reported more. -/
def Continues : List (Job κ V) → List (Job κ V) → Prop
  | [], js' => js' = []
  | j :: js, js' => ∃ j', js' = j' :: js ∧ j'.ticket = j.ticket

lemma continues_refl (js : List (Job κ V)) : Continues js js := by
  cases js with
  | nil => rfl
  | cons j js => exact ⟨j, rfl, rfl⟩

lemma Continues.trans {js js' js'' : List (Job κ V)} (h : Continues js js')
    (h' : Continues js' js'') : Continues js js'' := by
  cases js with
  | nil =>
      cases h
      exact h'
  | cons j js =>
      obtain ⟨j', rfl, hj'⟩ := h
      obtain ⟨j'', rfl, hj''⟩ := h'
      exact ⟨j'', rfl, hj''.trans hj'⟩

lemma continues_inherit (result : Option (Entry V)) (js : List (Job κ V)) :
    Continues js (inherit result js) := by
  cases result with
  | none => exact continues_refl js
  | some e =>
      cases js with
      | nil => rfl
      | cons j js => exact ⟨j.hear (.nested e), rfl, rfl⟩

variable [DecidableEq κ] {S S' : Shared κ σ V} {js js' : List (Job κ V)} {s s' : Session κ σ V}

/-- **In some steps of the thread,** in which some questions are asked, a session comes about. -/
def Leads (S : Shared κ σ V) (js : List (Job κ V)) (qs : List (Question κ × Bool))
    (s : Session κ σ V) : Prop :=
  ∃ as S' js', Course S ⟨.running, js⟩ as S' ⟨.running, js'⟩ ∧ Shows S' ⟨.running, js'⟩ s ∧
    Continues js js' ∧ Action.Tells as qs

lemma Leads.refl (h : Shows S ⟨.running, js⟩ s) : Leads S js [] s :=
  ⟨[], S, js, .none, h, continues_refl js, rfl, rfl⟩

lemma Leads.turn {a : Action κ σ V} (h : Turn S ⟨.running, js⟩ a S' ⟨.running, js'⟩)
    (hs : Shows S' ⟨.running, js'⟩ s) (hjs : Continues js js') (ha : a.Quiet) : Leads S js [] s :=
  ⟨[a], S', js', h.course, hs, hjs, ha.tells⟩

lemma Leads.bind {qs qs' : List (Question κ × Bool)} (h : Leads S js qs s)
    (hn : Neat S ⟨.running, js⟩)
    (hnext : ∀ S' js', Neat S' ⟨.running, js'⟩ → Shows S' ⟨.running, js'⟩ s →
      Leads S' js' qs' s') : Leads S js (qs ++ qs') s' := by
  obtain ⟨as, S', js', hcourse, hs, hjs, has⟩ := h
  obtain ⟨bs, S'', js'', hcourse', hs', hjs', hbs⟩ := hnext S' js' (hcourse.neat hn) hs
  exact ⟨as ++ bs, S'', js'', hcourse.trans hcourse', hs', hjs.trans hjs', has.append hbs⟩

lemma Leads.exists_course {qs qs' : List (Question κ × Bool)} (h : Leads S js qs s)
    (hn : Neat S ⟨.running, js⟩)
    (hnext : ∀ {S' : Shared κ σ V} {js' : List (Job κ V)}, Neat S' ⟨.running, js'⟩ →
      Shows S' ⟨.running, js'⟩ s → ∃ as S'' js'',
        Course S' ⟨.running, js'⟩ as S'' ⟨.running, js''⟩ ∧ Shows S'' ⟨.running, js''⟩ s' ∧
          Action.Tells as qs') :
    ∃ as S' js', Course S ⟨.running, js⟩ as S' ⟨.running, js'⟩ ∧ Shows S' ⟨.running, js'⟩ s' ∧
      Action.Tells as (qs ++ qs') := by
  obtain ⟨as, S', js', hcourse, hs, -, has⟩ := h
  obtain ⟨bs, S'', js'', hcourse', hs', hbs⟩ := hnext (hcourse.neat hn) hs
  exact ⟨as ++ bs, S'', js'', hcourse.trans hcourse', hs', has.append hbs⟩

namespace Session

/-- A report in one step, or in none if nothing is under way. -/
lemma withFrame_leads (hs : Shows S ⟨.running, js⟩ s) (r : Observation V)
    (hr : ∀ j js, ∃ a, Turn S ⟨.running, j :: js⟩ a S ⟨.running, j.hear r :: js⟩ ∧ a.Quiet) :
    Leads S js [] (s.withFrame (·.hear r)) := by
  cases js with
  | nil =>
      refine .refl ⟨hs.entries, hs.generation, hs.stats, hs.locks, hs.held, ?_, hs.world⟩
      rw [withFrame, hs.frames]
      rfl
  | cons j js =>
      obtain ⟨a, hturn, ha⟩ := hr j js
      exact .turn hturn (hs.hear r) ⟨j.hear r, rfl, rfl⟩ ha

/-- A file is mentioned in one step, or in none if it cannot be looked at. -/
lemma declare_leads (hs : Shows S ⟨.running, js⟩ s) (p : Path) :
    Leads S js [] (s.declare (ε := ε) p).2 := by
  cases js with
  | nil =>
      have hframe : s.frame? = none := by
        rw [frame?, hs.frames]
        rfl
      rw [declare, hframe]
      exact .refl hs
  | cons j js =>
      obtain ⟨ns, ⟨fault, -, h⟩ | ⟨ds, hd, h⟩⟩ := declare_cases (ε := ε) hs.frames p
      · rw [h]
        exact .refl (hs.withNotices ns)
      · obtain ⟨digest, hp, -⟩ := Digests.exists_declare_eq_keep hd
        rw [hs.world] at hd
        have hheard := (hs.withNotices ns).hear (.file p digest)
        rw [withFrame, (hs.withNotices ns).frames] at hheard
        simp only [List.map_cons, Frame.hear_file hd hp] at hheard
        rw [h]
        exact .turn (.file hd hp) hheard ⟨_, rfl, rfl⟩ ⟨rfl, rfl⟩

lemma lower_leads (hs : Shows S ⟨.running, js⟩ s) (level : Durability) :
    Leads S js [] (s.withFrame (·.lower level)) :=
  withFrame_leads hs (.level level) fun _ _ => ⟨_, .level level, rfl, rfl⟩

lemma untracked_leads (hs : Shows S ⟨.running, js⟩ s) :
    Leads S js [] (s.withFrame Frame.markUntracked) :=
  withFrame_leads hs .untracked fun _ _ => ⟨_, .untracked, rfl, rfl⟩

lemma invalidate_leads (hs : Shows S ⟨.running, js⟩ s) (hn : Neat S ⟨.running, js⟩)
    (level : Durability) : Leads S js [] (s.withCache fun c => (c.invalidate level).1) :=
  .turn (.invalidate level) (hs.prune hn _) (continues_refl js) ⟨rfl, rfl⟩

lemma clear_leads (hs : Shows S ⟨.running, js⟩ s) (hn : Neat S ⟨.running, js⟩) :
    Leads S js [] (s.withCache Cache.clear) :=
  .turn .clear (hs.prune hn fun _ => []) (continues_refl js) ⟨rfl, rfl⟩

/-- The world changes in one step, whatever is said about it. -/
lemma change_leads (hs : Shows S ⟨.running, js⟩ s) (ns : List Notice) (w : World σ) :
    Leads S js [] { s.withNotices ns with world := w } := by
  have hs' := hs.withNotices ns
  have hchanged : Shows { S with world := w } ⟨.running, js⟩ { s.withNotices ns with world := w } :=
    ⟨hs'.entries, hs'.generation, hs'.stats, hs'.locks, hs'.held, hs'.frames, rfl⟩
  exact .turn (.change _ w) hchanged (continues_refl js) ⟨rfl, rfl⟩

variable [QueryKey κ]

/-- The questions that a computation asks, if it begins. -/
def inner (s₀ : Option (Session κ σ V)) (body : Computation κ σ V ε V) :
    List (Question κ × Bool) :=
  match s₀ with
  | none => []
  | some s₀ => asked body s₀

lemma exists_begun {q : Question κ} {seen l : Nat} {s₀ : Session κ σ V}
    (hs : Shows S ⟨.inside q seen l, js⟩ s) (hopening : s.opening seen q = some s₀) :
    ∃ S' j, Turn S ⟨.inside q seen l, js⟩ .begin S' ⟨.running, j :: js⟩ ∧
      Shows S' ⟨.running, j :: js⟩ s₀ ∧ j.ticket = (q, l) := by
  rw [opening] at hopening
  cases s.finding seen q with
  | shared _ _ h =>
      rw [h] at hopening
      cases hopening
  | fresh _ _ _ h =>
      rw [h] at hopening
      cases hopening
  | unclear _ _ _ h =>
      rw [h] at hopening
      cases hopening
  | @stale ns hstale h =>
      rw [h] at hopening
      cases hopening
      refine ⟨S.begin, _, .begin fun e he => ?_, (hs.withNotices ns).begun, rfl⟩
      rw [← hs.entry?_eq] at he
      exact hs.world ▸ hstale e he

/-- **A result is found in steps,** if its computation can be taken apart into steps. -/
lemma obtain_leads {q : Question κ} {seen l : Nat} (hs : Shows S ⟨.inside q seen l, js⟩ s)
    (hn : Neat S ⟨.inside q seen l, js⟩) (body : Computation κ σ V ε V)
    (hbody : ∀ s₀ S js, Neat S ⟨.running, js⟩ → Shows S ⟨.running, js⟩ s₀ →
      Leads S js (asked body s₀) (run body s₀).2) :
    ∃ as S', Course S ⟨.inside q seen l, js⟩ as S'
        ⟨.leaving q l (s.obtain seen q (run body)).1.toOption, js⟩ ∧
      Shows S' ⟨.leaving q l (s.obtain seen q (run body)).1.toOption, js⟩
        (s.obtain seen q (run body)).2 ∧
      Action.Tells as (inner (s.opening seen q) body) := by
  cases s.finding seen q with
  | shared he hgen h =>
      rw [hs.entry?_eq] at he
      rw [h, opening, h]
      exact ⟨_, _, (Turn.share he hgen).course, hs.record .shared _ rfl rfl, rfl, rfl⟩
  | @fresh e ns he hgen hfresh h =>
      rw [hs.entry?_eq] at he
      rw [h, opening, h]
      exact ⟨_, _, (Turn.hit he hgen (hs.world ▸ hfresh)).course,
        (hs.withNotices ns).record .hit _ rfl rfl, rfl, rfl⟩
  | @unclear e fault ns he hgen hfault h =>
      rw [hs.entry?_eq] at he
      rw [h, opening, h]
      exact ⟨_, _, (Turn.falter he hgen (hs.world ▸ hfault)).course,
        (hs.withNotices ns).moved _ rfl rfl, rfl, rfl⟩
  | @stale ns hstale h =>
      have hopening : s.opening seen q = some ((s.withNotices ns).opened q) := by
        rw [opening, h]
        rfl
      -- The computation begins, and ends under the lock and for the question that it began with.
      obtain ⟨S₁, j₁, hbegun, hs₁, hj₁⟩ := exists_begun hs hopening
      obtain ⟨bs, S₂, js₂, hcourse, hs₂, ⟨j, rfl, hj⟩, hbs⟩ :=
        hbody _ _ _ (hbegun.course.neat hn) hs₁
      obtain ⟨rfl, rfl⟩ := Prod.mk.inj (hj.trans hj₁)
      have hframes : (s.withNotices ns).frames = js.map Job.frame := hs.frames
      obtain ⟨a, S₃, hclosed, hs₃, ha⟩ := hs₂.closed hframes
        (run body ((s.withNotices ns).opened j.question)).1
      have hbegins : (.begin : Action κ σ V).Quiet := ⟨rfl, rfl⟩
      have htells := (hbegins.tells.append hbs).append ha.tells
      rw [List.nil_append, List.append_nil] at htells
      rw [h, hopening]
      exact ⟨_, S₃, (hbegun.course.trans hcourse).snoc hclosed, hs₃, htells⟩

/-- **A thread that has been handed the lock of its question** is answered in steps, and the lock
stays in the table. -/
lemma serve_of_waiting {q : Question κ} {seen l : Nat} (hs : Shows S ⟨.waiting q seen l, js⟩ s)
    (hn : Neat S ⟨.waiting q seen l, js⟩) (hl : (q, l) ∈ S.table) (hheld : q ∉ s.cache.held)
    (body : Computation κ σ V ε V)
    (hbody : ∀ s₀ S js, Neat S ⟨.running, js⟩ → Shows S ⟨.running, js⟩ s₀ →
      Leads S js (asked body s₀) (run body s₀).2) :
    ∃ as S' js', Course S ⟨.waiting q seen l, js⟩ as S' ⟨.running, js'⟩ ∧
      Shows S' ⟨.running, js'⟩ (s.serve seen q (run body)).2 ∧ Continues js js' ∧
      (q, l) ∈ S'.table ∧ Action.Tells as (inner ((s.locked q).opening seen q) body) := by
  have henter : Course S ⟨.waiting q seen l, js⟩ [.enter] (S.take l) ⟨.inside q seen l, js⟩ :=
    .snoc .none (.enter (hs.free hn hl hheld))
  obtain ⟨as, S', hcourse, hs', has⟩ := obtain_leads (hs.entered hl) (henter.neat hn) body hbody
  have hall := henter.trans hcourse
  have henters : (.enter : Action κ σ V).Quiet := ⟨rfl, rfl⟩
  have hleaves : (.leave : Action κ σ V).Quiet := ⟨rfl, rfl⟩
  have htells := (henters.tells.append has).append hleaves.tells
  rw [List.nil_append, List.append_nil] at htells
  rw [serve_eq hheld]
  exact ⟨_, _, _, hall.snoc .leave, hs'.left, continues_inherit _ _,
    (hall.neat hn).tidy 0 (q, l) (Or.inr List.mem_cons_self), htells⟩

/-- **A request in steps,** if its computation can be taken apart into steps. -/
lemma serve_leads (hs : Shows S ⟨.running, js⟩ s) (hn : Neat S ⟨.running, js⟩) (q : Question κ)
    (body : Computation κ σ V ε V)
    (hbody : ∀ s₀ S js, Neat S ⟨.running, js⟩ → Shows S ⟨.running, js⟩ s₀ →
      Leads S js (asked body s₀) (run body s₀).2) :
    Leads S js ((q, s.cache.isHeld q) :: inner (s.begins q) body)
      (s.serve (s.cache.storedGeneration q) q (run body)).2 := by
  by_cases hheld : q ∈ s.cache.held
  · obtain ⟨S', hcourse, hs'⟩ := hs.exists_refused hn q hheld
    rw [serve_of_held hheld, begins_of_held hheld, Cache.isHeld, decide_eq_true hheld]
    exact ⟨_, S', js, hcourse, hs', continues_refl js, rfl, rfl⟩
  · obtain ⟨S', l, hhanded, hs', hl⟩ := hs.exists_handed q
    have hheld' : q ∉ (s.withCache (·.ensureLock q)).cache.held :=
      (held_ensureLock s.cache q).symm ▸ hheld
    obtain ⟨as, S'', js', hcourse, hs'', hjs, -, has⟩ :=
      serve_of_waiting hs' (hhanded.neat hn) hl hheld' body hbody
    rw [serve_ensureLock] at hs''
    rw [locked_ensureLock, ← begins_eq hheld] at has
    rw [Cache.isHeld, decide_eq_false hheld]
    exact ⟨_, S'', js', hhanded.trans hcourse, hs'', hjs, (Action.tells_handed q).append has⟩

lemma exists_opened (hs : Shows S ⟨.running, js⟩ s) (hn : Neat S ⟨.running, js⟩) {q : Question κ}
    {s₀ : Session κ σ V} (hbegins : s.begins q = some s₀) :
    ∃ as S' j, Course S ⟨.running, js⟩ as S' ⟨.running, j :: js⟩ ∧
      Shows S' ⟨.running, j :: js⟩ s₀ ∧ Action.Tells as [(q, s.cache.isHeld q)] := by
  have hheld : q ∉ s.cache.held := fun hheld =>
    absurd ((begins_of_held hheld).symm.trans hbegins) nofun
  obtain ⟨S₁, l, hhanded, hs₁, hl⟩ := hs.exists_handed q
  have hheld₁ : q ∉ (s.withCache (·.ensureLock q)).cache.held :=
    (held_ensureLock s.cache q).symm ▸ hheld
  have henter := hhanded.snoc (.enter (hs₁.free (hhanded.neat hn) hl hheld₁))
  have hlocked := hs₁.entered hl
  rw [locked_ensureLock] at hlocked
  rw [begins_eq hheld] at hbegins
  obtain ⟨S₂, j, hbegun, hs₂, -⟩ := exists_begun hlocked hbegins
  rw [Cache.isHeld, decide_eq_false hheld]
  exact ⟨_, S₂, j, henter.snoc hbegun, hs₂, rfl, rfl⟩

/-- **A computation in steps.**  All that it does in a session is done in steps of a thread that has
the cache to itself, and the same questions are asked. -/
theorem run_leads {α : Type} (c : Computation κ σ V ε α) :
    ∀ (s : Session κ σ V) (S : Shared κ σ V) (js : List (Job κ V)), Neat S ⟨.running, js⟩ →
      Shows S ⟨.running, js⟩ s → Leads S js (asked c s) (run c s).2 := by
  induction c with
  | done a => exact fun s S js _ hs => .refl hs
  | fail f => exact fun s S js _ hs => .refl hs
  | declare p next ih => exact fun s S js hn hs => (declare_leads hs p).bind hn (ih _ _)
  | lower level next ih => exact fun s S js hn hs => (lower_leads hs level).bind hn (ih _)
  | untracked next ih => exact fun s S js hn hs => (untracked_leads hs).bind hn (ih _)
  | request q body next ihbody ih =>
      exact fun s S js hn hs => (serve_leads hs hn q body ihbody).bind hn (ih _ _)
  | invalidate level next ih =>
      exact fun s S js hn hs => (invalidate_leads hs hn level).bind hn (ih _ _)
  | clear next ih => exact fun s S js hn hs => (clear_leads hs hn).bind hn (ih _)
  | inspect next ih => exact fun s S js hn hs => ih s s S js hn hs
  | perform act next ih => exact fun s S js hn hs => (change_leads hs _ _).bind hn (ih _ _)

/-! ## Computations that are not over -/

/-- **The sessions that a computation goes through,** each with the questions that have been asked
by then.  A request is gone into if its computation begins, and gone past when it is answered. -/
inductive Visits : {α : Type} → Computation κ σ V ε α → Session κ σ V → List (Question κ × Bool) →
    Session κ σ V → Prop
  | here {α : Type} (c : Computation κ σ V ε α) (s : Session κ σ V) : Visits c s [] s
  | declare {α : Type} {p : Path} {next : Except (Failure ε) Unit → Computation κ σ V ε α}
      {s s' : Session κ σ V} {qs : List (Question κ × Bool)}
      (h : Visits (next (s.declare p).1) (s.declare (ε := ε) p).2 qs s') :
      Visits (.declare p next) s qs s'
  | lower {α : Type} {level : Durability} {next : Computation κ σ V ε α} {s s' : Session κ σ V}
      {qs : List (Question κ × Bool)} (h : Visits next (s.withFrame (·.lower level)) qs s') :
      Visits (.lower level next) s qs s'
  | untracked {α : Type} {next : Computation κ σ V ε α} {s s' : Session κ σ V}
      {qs : List (Question κ × Bool)} (h : Visits next (s.withFrame Frame.markUntracked) qs s') :
      Visits (.untracked next) s qs s'
  | inside {α : Type} {q : Question κ} {body : Computation κ σ V ε V}
      {next : Except (Failure ε) V → Computation κ σ V ε α} {s s₀ s' : Session κ σ V}
      {qs : List (Question κ × Bool)} (hbegins : s.begins q = some s₀) (h : Visits body s₀ qs s') :
      Visits (.request q body next) s ((q, s.cache.isHeld q) :: qs) s'
  | past {α : Type} {q : Question κ} {body : Computation κ σ V ε V}
      {next : Except (Failure ε) V → Computation κ σ V ε α} {s s' : Session κ σ V}
      {qs : List (Question κ × Bool)}
      (h : Visits (next (s.serve (s.cache.storedGeneration q) q (run body)).1)
        (s.serve (s.cache.storedGeneration q) q (run body)).2 qs s') :
      Visits (.request q body next) s
        ((q, s.cache.isHeld q) :: (inner (s.begins q) body ++ qs)) s'
  | invalidate {α : Type} {level : Durability} {next : Nat → Computation κ σ V ε α}
      {s s' : Session κ σ V} {qs : List (Question κ × Bool)}
      (h : Visits (next (s.cache.invalidate level).2)
        (s.withCache fun c => (c.invalidate level).1) qs s') :
      Visits (.invalidate level next) s qs s'
  | clear {α : Type} {next : Computation κ σ V ε α} {s s' : Session κ σ V}
      {qs : List (Question κ × Bool)} (h : Visits next (s.withCache Cache.clear) qs s') :
      Visits (.clear next) s qs s'
  | inspect {α : Type} {next : Session κ σ V → Computation κ σ V ε α} {s s' : Session κ σ V}
      {qs : List (Question κ × Bool)} (h : Visits (next s) s qs s') : Visits (.inspect next) s qs s'
  | perform {α β : Type} {act : World σ → Noted (β × World σ)} {next : β → Computation κ σ V ε α}
      {s s' : Session κ σ V} {qs : List (Question κ × Bool)}
      (h : Visits (next (act s.world).value.1)
        { s.withNotices (act s.world).notices with world := (act s.world).value.2 } qs s') :
      Visits (.perform act next) s qs s'

/-- Among them is the session at the end, when all questions have been asked. -/
lemma visits_run {α : Type} (c : Computation κ σ V ε α) :
    ∀ s : Session κ σ V, Visits c s (asked c s) (run c s).2 := by
  induction c with
  | done a => exact fun s => .here _ s
  | fail f => exact fun s => .here _ s
  | declare p next ih => exact fun s => .declare (ih _ _)
  | lower level next ih => exact fun s => .lower (ih _)
  | untracked next ih => exact fun s => .untracked (ih _)
  | request q body next _ ih => exact fun s => .past (ih _ _)
  | invalidate level next ih => exact fun s => .invalidate (ih _ _)
  | clear next ih => exact fun s => .clear (ih _)
  | inspect next ih => exact fun s => .inspect (ih s s)
  | perform act next ih => exact fun s => .perform (ih _ _)

/-- **Each of them comes about in some steps** of a thread that has the cache to itself, in which
the same questions have been asked. -/
theorem Visits.exists_course {α : Type} {c : Computation κ σ V ε α} {qs : List (Question κ × Bool)}
    (h : Visits c s qs s') : ∀ {S : Shared κ σ V} {js : List (Job κ V)}, Neat S ⟨.running, js⟩ →
      Shows S ⟨.running, js⟩ s → ∃ as S' js', Course S ⟨.running, js⟩ as S' ⟨.running, js'⟩ ∧
        Shows S' ⟨.running, js'⟩ s' ∧ Action.Tells as qs := by
  induction h with
  | here c s => exact fun hn hs => ⟨[], _, _, .none, hs, rfl, rfl⟩
  | declare _ ih => exact fun hn hs => (declare_leads hs _).exists_course hn ih
  | lower _ ih => exact fun hn hs => (lower_leads hs _).exists_course hn ih
  | untracked _ ih => exact fun hn hs => (untracked_leads hs).exists_course hn ih
  | inside hbegins _ ih =>
      intro S js hn hs
      obtain ⟨as, S₁, j, hopened, hs₁, has⟩ := exists_opened hs hn hbegins
      obtain ⟨bs, S₂, js₂, hcourse, hs₂, hbs⟩ := ih (hopened.neat hn) hs₁
      exact ⟨_, S₂, js₂, hopened.trans hcourse, hs₂, has.append hbs⟩
  | past _ ih => exact fun hn hs => (serve_leads hs hn _ _ (run_leads _)).exists_course hn ih
  | invalidate _ ih => exact fun hn hs => (invalidate_leads hs hn _).exists_course hn ih
  | clear _ ih => exact fun hn hs => (clear_leads hs hn).exists_course hn ih
  | inspect _ ih => exact ih
  | perform _ ih => exact fun hn hs => (change_leads hs _ _).exists_course hn ih

end Session

end ScarbCrates
