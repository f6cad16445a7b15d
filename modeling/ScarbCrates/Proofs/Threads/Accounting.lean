import ScarbCrates.Proofs.Query.History
import ScarbCrates.Proofs.Threads.Sessions

/-!
# How requests are answered, and counted

A session has the cache to itself, so a result that it has seen when it asks is still the one that
it finds when it has the lock: nothing is shared.  A request is a hit or a miss, or waits for
itself.

* `Session.Hits`, `Session.MissesAt` — what a hit is, and what a miss is.
* `Tallied`, `Course.tallied` — each request that has been answered has been counted once.
* `Session.hits_iff` — a request is a hit exactly if there is a result that has read nothing
  untracked and whose files are as they were.
* `Session.Visits.answered` — in every session that a computation goes through.
-/

namespace ScarbCrates

variable {κ σ V ε : Type} [DecidableEq κ] {S S' : Shared κ σ V} {t t' : Thread κ V}

/-! ## Counting -/

namespace Phase

/-- How many requests a thread has made that have not been answered yet. -/
def pending : Phase κ V → Nat
  | .asking _ _ => 1
  | .waiting _ _ _ => 1
  | .inside _ _ _ => 1
  | _ => 0

/-- The question that a thread asks, with the generation that it has seen. -/
def seen? : Phase κ V → Option (Question κ × Nat)
  | .asking q seen => some (q, seen)
  | .waiting q seen _ => some (q, seen)
  | .inside q seen _ => some (q, seen)
  | _ => none

end Phase

/-- **The counters agree with what a thread by itself has done:** nothing was shared, each request
that has been answered is a hit, a miss or refused, and no result has been stored since the thread
asked. -/
structure Tallied (S : Shared κ σ V) (t : Thread κ V) (as : List (Action κ σ V)) : Prop where
  shared : S.stats.shared = 0
  answered : S.stats.hits + S.stats.misses + Action.refusals as + t.phase.pending =
    (Action.asked as).length
  seen : ∀ q seen, t.phase.seen? = some (q, seen) → S.cache.storedGeneration q = seen

/-- A turn keeps the counters in agreement if what it counts is what it asks and answers. -/
lemma Tallied.step {as : List (Action κ σ V)} {a : Action κ σ V} (h : Tallied S t as)
    (hshared : S'.stats.shared = S.stats.shared)
    (hcount : S'.stats.hits + S'.stats.misses + Action.refusals [a] + t'.phase.pending =
      S.stats.hits + S.stats.misses + t.phase.pending + (Action.asked [a]).length)
    (hseen : ∀ q seen, t'.phase.seen? = some (q, seen) → S'.cache.storedGeneration q = seen) :
    Tallied S' t' (as ++ [a]) := by
  refine ⟨hshared.trans h.shared, ?_, hseen⟩
  have hanswered := h.answered
  simp only [Action.refusals, Action.asked, List.countP_append, List.filterMap_append,
    List.length_append] at hanswered hcount ⊢
  omega

/-- **One turn of a thread by itself.**  Nothing is shared, since the result that was seen is still
the stored one; and whether a stored result is fresh can always be told. -/
lemma Turn.tallied {as : List (Action κ σ V)} {a : Action κ σ V} (h : Turn S t a S' t')
    (hS : S.Recorded) (ht : Tallied S t as) : Tallied S' t' (as ++ [a]) := by
  cases h with
  | request js q =>
      refine ht.step rfl rfl fun q' seen h => ?_
      cases h
      rfl
  | lock h => exact ht.step rfl rfl ht.seen
  | make h => exact ht.step rfl rfl ht.seen
  | enter h => exact ht.step rfl rfl ht.seen
  | refuse h => exact ht.step rfl rfl fun _ _ => nofun
  | share he hgen =>
      exact absurd ((Cache.storedGeneration_of_entry? he).symm.trans (ht.seen _ _ rfl)) hgen
  | hit he hgen hfresh =>
      refine ht.step rfl ?_ fun _ _ => nofun
      show S.stats.hits + 1 + S.stats.misses = S.stats.hits + S.stats.misses + 1
      omega
  | begin h => exact ht.step rfl rfl fun _ _ => nofun
  | falter he hgen hfault =>
      obtain ⟨b, hb⟩ := Entry.exists_isFresh (hS.sealed (Assoc.mem_of_get? he)) S.world.disk
      exact absurd (hb.symm.trans hfault) nofun
  | change t w => exact ht.step rfl rfl ht.seen
  | file hd hp => exact ht.step rfl rfl fun _ _ => nofun
  | level level => exact ht.step rfl rfl fun _ _ => nofun
  | untracked => exact ht.step rfl rfl fun _ _ => nofun
  | store v hd => exact ht.step rfl rfl fun _ _ => nofun
  | discard v hd => exact ht.step rfl rfl fun _ _ => nofun
  | abort => exact ht.step rfl rfl fun _ _ => nofun
  | leave => exact ht.step rfl rfl fun _ _ => nofun
  | invalidate level => exact ht.step rfl rfl fun _ _ => nofun
  | clear => exact ht.step rfl rfl fun _ _ => nofun

/-- **Whatever a thread by itself has done,** the counters agree with it. -/
lemma Course.tallied {w : World σ} {as : List (Action κ σ V)}
    (h : Course (.start w) .idle as S t) : Tallied S t as := by
  induction h with
  | none => exact ⟨rfl, rfl, fun _ _ => nofun⟩
  | snoc h ha ih => exact ha.tallied h.reachable.recorded.shared ih

/-! ## Hits and misses -/

namespace Session

variable [QueryKey κ]

/-- **A hit:** whatever the computation is, it is not run, the stored value is returned, all results
stay as they are, and a hit is counted. -/
def Hits (s : Session κ σ V) (q : Question κ) : Prop :=
  ∃ e s', s.cache.entry? q = some e ∧
    (∀ {ε : Type} (body : Body κ σ V ε),
      s.serve (s.cache.storedGeneration q) q body = (.ok e.value, s')) ∧
    s'.cache.entries = s.cache.entries ∧ s'.cache.stats = s.cache.stats.record .hit

/-- **A miss:** the computation is run once, in a frame of its own, after a miss has been counted
for it; nothing else is counted. -/
structure MissesAt (s : Session κ σ V) (q : Question κ) (s₀ : Session κ σ V) : Prop where
  begins : s.begins q = some s₀
  frames : s₀.frames = Frame.start q :: s.frames
  world : s₀.world = s.world
  entries : s₀.cache.entries = s.cache.entries
  stats : s₀.cache.stats = s.cache.stats.record .miss
  once : ∀ {ε : Type} (body : Body κ σ V ε),
    s.serve (s.cache.storedGeneration q) q body = unlocked q (s.closed q (body s₀))
  counted : ∀ {ε : Type} (body : Body κ σ V ε),
    (s.serve (s.cache.storedGeneration q) q body).2.cache.stats = (body s₀).2.cache.stats

omit [QueryKey κ] in
lemma stats_locked (s : Session κ σ V) (q : Question κ) :
    (s.locked q).cache.stats = s.cache.stats := by
  show (s.cache.ensureLock q).stats = _
  rw [Cache.ensureLock]
  split <;> rfl

omit [QueryKey κ] in
/-- The end of a computation counts nothing and leaves the world alone. -/
lemma unlocked_closed (s : Session κ σ V) (q : Question κ)
    (out : Except (Failure ε) V × Session κ σ V) :
    (unlocked q (s.closed q out)).2.cache.stats = out.2.cache.stats ∧
      (unlocked q (s.closed q out)).2.world = out.2.world := by
  obtain ⟨r, after⟩ := out
  cases r with
  | error f => exact ⟨rfl, rfl⟩
  | ok v =>
      rw [closed, settle]
      cases (after.frame?.getD (Frame.start q)).digests.fingerprint <;> exact ⟨rfl, rfl⟩

/-- A request that does not wait for itself is a hit or a miss, if it can be told whether the stored
result is fresh. -/
lemma hits_or_misses {s : Session κ σ V} {q : Question κ} (hheld : q ∉ s.cache.held)
    (hclear : ∀ e, s.cache.entry? q = some e → ∃ b, (e.isFresh s.world.disk).run.value = .ok b) :
    (s.Hits q ∧ ∃ e, s.cache.entry? q = some e ∧ (e.isFresh s.world.disk).run.value = .ok true) ∨
      (¬s.Hits q ∧ (∃ s₀, s.MissesAt q s₀) ∧
        ∀ e, s.cache.entry? q = some e → (e.isFresh s.world.disk).run.value = .ok false) := by
  have hentry : (s.locked q).cache.entry? q = s.cache.entry? q := by
    rw [Cache.entry?, entries_locked]
    rfl
  cases (s.locked q).finding (s.cache.storedGeneration q) q with
  | shared he hgen =>
      rw [hentry] at he
      exact absurd (Cache.storedGeneration_of_entry? he).symm hgen
  | @fresh e ns he _ hfresh h =>
      rw [hentry] at he
      have hserve : ∀ {ε : Type} (body : Body κ σ V ε),
          s.serve (s.cache.storedGeneration q) q body =
            unlocked q (.ok e, ((s.locked q).withNotices ns).withCache (·.record .hit)) :=
        fun body => by rw [serve_eq hheld, h]
      refine Or.inl ⟨⟨e, _, he, fun body => hserve body, ?_, ?_⟩, e, he, hfresh⟩
      · exact entries_locked s q
      · exact congrArg (Stats.record · .hit) (stats_locked s q)
  | @unclear e fault _ he _ hfault =>
      rw [hentry] at he
      obtain ⟨b, hb⟩ := hclear e he
      cases hb.symm.trans hfault
  | @stale ns hstale h =>
      rw [hentry] at hstale
      have hserve : ∀ {ε : Type} (body : Body κ σ V ε),
          s.serve (s.cache.storedGeneration q) q body =
            unlocked q (((s.locked q).withNotices ns).closed q
              (body (((s.locked q).withNotices ns).opened q))) :=
        fun body => by rw [serve_eq hheld, h]
      have hbegins : s.begins q = some (((s.locked q).withNotices ns).opened q) := by
        rw [begins, hserve]
        rfl
      refine Or.inr ⟨?_, ⟨_, hbegins, rfl, rfl, entries_locked s q, ?_, fun body => hserve body,
        fun body => ?_⟩, fun e he => (hstale e he).2⟩
      · -- A hit would give its value even if the computation failed.
        rintro ⟨e, s', -, hall, -⟩
        have herror := (hserve (ε := Unit) fun s₀ => (.error .deadlock, s₀)).symm.trans (hall _)
        cases congrArg Prod.fst herror
      · exact congrArg (Stats.record · .miss) (stats_locked s q)
      · rw [hserve]
        exact (unlocked_closed _ q _).1

omit [QueryKey κ] in
/-- On the record of a session, a result that has read nothing untracked, at any depth, is one that is
not marked as untracked. -/
lemma exists_untainted_iff {s : Session κ σ V} (hrec : S.Recorded) (hs : Shows S t s)
    {q : Question κ} {e : Entry V} (hentry : s.cache.entry? q = some e) (d : Disk) :
    (∃ e j, s.cache.entry? q = some e ∧ (j, e) ∈ S.log ∧ j.question = q ∧ ¬Tainted S.log j ∧
      e.digests.Holds d) ↔ e.untracked = false ∧ e.digests.Holds d := by
  constructor
  · rintro ⟨e', j, he', hj, -, hclean, hholds⟩
    obtain rfl := Option.some.inj (hentry.symm.trans he')
    rw [← hrec.untracked_iff hj, Bool.not_eq_true] at hclean
    exact ⟨hclean, hholds⟩
  · rintro ⟨hclean, hholds⟩
    have hstored : (q, e) ∈ S.entries := by
      rw [hs.entry?_eq] at hentry
      exact Assoc.mem_of_get? hentry
    obtain ⟨j, hj, hq⟩ := hrec.entries _ hstored
    refine ⟨e, j, hentry, hj, hq, ?_, hholds⟩
    rw [← hrec.untracked_iff hj, hclean]
    exact Bool.false_ne_true

/-- **The exact condition of a hit.**  There is a result for the question; neither its computation
nor one whose result has gone into it has read anything untracked; and the files are as they were.
Otherwise the computation is run. -/
lemma hits_iff {s : Session κ σ V} (hrec : S.Recorded) (hs : Shows S t s) {q : Question κ}
    (hheld : q ∉ s.cache.held)
    (hc : ∀ e, s.cache.entry? q = some e → e.NoCollision s.world.disk) :
    (s.Hits q ↔ ∃ e j, s.cache.entry? q = some e ∧ (j, e) ∈ S.log ∧ j.question = q ∧
        ¬Tainted S.log j ∧ e.digests.Holds s.world.disk) ∧
      (¬s.Hits q → ∃ s₀, s.MissesAt q s₀) := by
  have hmem : ∀ e, s.cache.entry? q = some e → (q, e) ∈ S.entries := fun e he => by
    rw [hs.entry?_eq] at he
    exact Assoc.mem_of_get? he
  have hclear : ∀ e, s.cache.entry? q = some e → ∃ b, (e.isFresh s.world.disk).run.value = .ok b :=
    fun e he => Entry.exists_isFresh (hrec.sealed (hmem e he)) _
  rcases hits_or_misses hheld hclear with ⟨hhit, e, he, hfresh⟩ | ⟨hmiss, hbegins, hstale⟩
  · have hnow := Entry.holds_of_isFresh (hrec.sealed (hmem e he)) (hc e he) hfresh
    exact ⟨⟨fun _ => (exists_untainted_iff hrec hs he _).2 hnow, fun _ => hhit⟩, absurd hhit⟩
  · refine ⟨⟨fun hhit => absurd hhit hmiss, fun h => ?_⟩, fun _ => hbegins⟩
    have ⟨e, _, he, _⟩ := h
    obtain ⟨hclean, hholds⟩ := (exists_untainted_iff hrec hs he _).1 h
    have hfresh := Entry.isFresh_of_holds (hrec.sealed (hmem e he)) hclean hholds
    exact absurd (hfresh.symm.trans (hstale e he)) nofun

/-- **How requests are answered in every session that a computation goes through.**  The session
comes about in steps in which the same questions have been asked, and these steps are on record.  A
request is a hit exactly if there is a result that has read nothing untracked, at any depth, and all
files of which are as they were; otherwise its computation is run, once.  Nothing is ever shared,
and each request so far has been a hit or a miss, unless it would have waited for itself. -/
theorem Visits.answered {α : Type} {c : Computation κ σ V ε α} {w : World σ}
    {qs : List (Question κ × Bool)} {s : Session κ σ V} (h : Visits c (Session.start w) qs s) :
    ∃ as S t, (Course (.start w) .idle as S t ∧ Shows S t s ∧ Action.Tells as qs) ∧
      (∀ q, q ∉ s.cache.held → (∀ e, s.cache.entry? q = some e → e.NoCollision s.world.disk) →
        (s.Hits q ↔ ∃ e j, s.cache.entry? q = some e ∧ (j, e) ∈ S.log ∧ j.question = q ∧
          ¬Tainted S.log j ∧ e.digests.Holds s.world.disk) ∧
        (¬s.Hits q → ∃ s₀, s.MissesAt q s₀)) ∧
      s.cache.stats.shared = 0 ∧
      s.cache.stats.hits + s.cache.stats.misses + qs.countP Prod.snd = qs.length := by
  obtain ⟨as, S, js, hcourse, hs, htells⟩ := h.exists_course (neat_start w) (.start w)
  obtain ⟨hshared, hanswered, -⟩ := hcourse.tallied
  rw [← hs.stats] at hshared hanswered
  rw [htells.asked, htells.refusals, List.length_map] at hanswered
  have hrec : S.Recorded := hcourse.reachable.recorded.shared
  exact ⟨as, S, _, ⟨hcourse, hs, htells⟩, fun q hheld hc => hits_iff hrec hs hheld hc, hshared,
    hanswered⟩

/-- The file that the example is about, which is not there at first. -/
def watched : Path := ⟨.single, [sampleName]⟩

/-- A question that is answered from the file, by way of another question. -/
def fromFile : Question Path := ⟨"report", watched⟩

/-- A question that is answered from the time, by way of another question. -/
def fromClock : Question Path := ⟨"stamp", watched⟩

/-- Asks both questions, and then writes some files. -/
def askBoth (writes : List Name) : Computation Path Unit Nat Empty Unit := do
  let _ ← .ask fromFile (.ask ⟨"file", watched⟩ (.declare watched fun _ => .done 1))
  let _ ← .ask fromClock (.ask ⟨"clock", watched⟩ (.untracked (.done 2)))
  .perform (fun w => ⟨((), writes.foldl (fun w n => w.write [n] (.file [] true)) w), []⟩) .done

/-- The session after both questions and the writes. -/
abbrev afterBoth (writes : List Name) : Session Path Unit Nat :=
  (run (askBoth writes) (start ⟨⟨.empty, .top⟩, ()⟩)).2

/-- Both results are there.  One has the file, which its nested question has declared; the other is as
untracked as its nested question. -/
lemma entries_askBoth (writes : List Name) :
    ∃ digest digest' : String,
      (afterBoth writes).cache.entry? fromFile =
        some ⟨1, [(watched, none)], digest, .high, false, 2⟩ ∧
      (afterBoth writes).cache.entry? fromClock = some ⟨2, [], digest', .high, true, 4⟩ ∧
      (afterBoth writes).cache.held = [] ∧
      (afterBoth writes).world =
        writes.foldl (fun w n => w.write [n] (.file [] true)) ⟨⟨.empty, .top⟩, ()⟩ ∧
      asked (askBoth writes) (start ⟨⟨.empty, .top⟩, ()⟩) =
        [(fromFile, false), (⟨"file", watched⟩, false), (fromClock, false),
          (⟨"clock", watched⟩, false)] := by
  obtain ⟨digest', hnone⟩ := Digests.exists_fingerprint_nil
  have hnodup : (Digests.files [(watched, none)]).Nodup := List.nodup_singleton _
  obtain ⟨digest, hone⟩ := (Digests.exists_fingerprint_iff hnodup).2 fun p hp =>
    List.mem_singleton.1 hp ▸ ⟨"/a", rfl⟩
  obtain ⟨ns, htaken⟩ : ∃ ns, (Digests.declare ⟨.empty, .top⟩ [] watched).run =
    ⟨.ok [(watched, none)], ns⟩ := ⟨_, rfl⟩
  have hmerge : Digests.merge [] [(watched, none)] = [(watched, none)] := rfl
  have hmerge' : Digests.merge [] [] = [] := rfl
  refine ⟨digest, digest', ?_⟩
  simp [afterBoth, askBoth, fromFile, fromClock, Computation.ask, Computation.ofExcept,
    Computation.andThen, bind, asked, begins, run, serve, obtain, compute, settle, declare, noted,
    Session.start, withCache, withNotices, withFrame, frame?, Frame.start, Frame.absorb,
    Frame.markUntracked, Cache.empty, Cache.ensureLock, Cache.isHeld, Cache.acquire, Cache.entry?,
    Cache.record, Cache.advance, Cache.entryOf, Cache.store, Cache.release, Assoc.put, Assoc.get?,
    Durability.min, hone, hnone, htaken, hmerge, hmerge']

/-- The text of a table with the file. -/
def watchedBytes (digest : Option String) : List UInt8 :=
  Text.encode (Text.ofChars (Digests.writtenPayload [(watched, digest)]).compact)

lemma canonicalBytes_watched (digest : Option String) :
    (Digests.payload [(watched, digest)]).canonicalBytes true = .ok (watchedBytes digest) := by
  have hnodup : (Digests.files [(watched, digest)]).Nodup := List.nodup_singleton _
  obtain ⟨ds, hds, h⟩ := Digests.exists_canonical_payload hnodup fun p hp =>
    List.mem_singleton.1 hp ▸ ⟨"/a", rfl⟩
  obtain rfl := List.perm_singleton.1 hds
  rw [Datum.canonicalBytes, h]
  rfl

/-- The digest of a file without content. -/
def emptyDigest : String := "e3b0c44298fc1c149afbf4c8996fb92427ae41e4649b934ca495991b7852b855"

/-- The digest of the file when it has come. -/
lemma ofFile_watched :
    (Digests.ofFile ⟨(FileTree.empty.write [otherName] (.file [] true)).write [sampleName]
      (.file [] true), .top⟩ watched).run.value = .ok (some emptyDigest) := by
  decide +kernel

lemma hash_watchedBytes :
    Sha256.hash (watchedBytes (some emptyDigest)) ≠ Sha256.hash (watchedBytes none) := by
  decide +kernel

lemma holds_other : Digests.Holds (afterBoth [otherName]).world.disk [(watched, none)] := by
  obtain ⟨-, -, -, -, -, hworld, -⟩ := entries_askBoth [otherName]
  rw [hworld]
  intro x hx
  obtain rfl := List.mem_singleton.1 hx
  rfl

lemma holds_both : Digests.Holds (afterBoth [otherName, sampleName]).world.disk
    [(watched, some emptyDigest)] := by
  obtain ⟨-, -, -, -, -, hworld, -⟩ := entries_askBoth [otherName, sampleName]
  rw [hworld]
  intro x hx
  obtain rfl := List.mem_singleton.1 hx
  exact ofFile_watched

/-- The text for the file that is not there does not collide with the one for the file that is. -/
lemma noCollision_both {e : Entry Nat} (he : e.digests = [(watched, none)]) :
    e.NoCollision (afterBoth [otherName, sampleName]).world.disk := by
  intro now bytes bytes' hcurrent hb hb' hhash
  rw [he] at hcurrent hb'
  obtain rfl : [(watched, some emptyDigest)] = now :=
    Except.ok.inj ((holds_both.current_eq (List.nodup_singleton _)).symm.trans hcurrent)
  rw [canonicalBytes_watched, Except.ok.injEq] at hb hb'
  subst hb hb'
  exact absurd hhash hash_watchedBytes

/-- **Both questions are asked and files are written.**  The answer from the file is there for the
next one who asks while another file is written, and is computed anew when the file has come; the
answer from the time is computed anew in any case. -/
theorem hits_again :
    ((afterBoth [otherName]).Hits fromFile ∧ ¬(afterBoth [otherName]).Hits fromClock ∧
      ∃ s₀, (afterBoth [otherName]).MissesAt fromClock s₀) ∧
    (¬(afterBoth [otherName, sampleName]).Hits fromFile ∧
      ∃ s₀, (afterBoth [otherName, sampleName]).MissesAt fromFile s₀) ∧
    ∀ writes, (afterBoth writes).cache.stats.hits + (afterBoth writes).cache.stats.misses = 4 := by
  -- A result hits exactly if it is tracked and the file is as it was.
  have key : ∀ writes q e, (afterBoth writes).cache.entry? q = some e →
      e.NoCollision (afterBoth writes).world.disk →
        ((afterBoth writes).Hits q ↔
          e.untracked = false ∧ e.digests.Holds (afterBoth writes).world.disk) ∧
        (¬(afterBoth writes).Hits q → ∃ s₀, (afterBoth writes).MissesAt q s₀) := by
    intro writes q e hentry hc
    obtain ⟨-, -, -, -, hheld, -, -⟩ := entries_askBoth writes
    obtain ⟨as, S, t, ⟨hcourse, hs, -⟩, hanswered, -⟩ :=
      Visits.answered (visits_run (askBoth writes) (start ⟨⟨.empty, .top⟩, ()⟩))
    have hrec : S.Recorded := hcourse.reachable.recorded.shared
    obtain ⟨hhits, hmisses⟩ := hanswered q (hheld ▸ List.not_mem_nil) fun e' he' => by
      obtain rfl := Option.some.inj (hentry.symm.trans he')
      exact hc
    exact ⟨hhits.trans (exists_untainted_iff hrec hs hentry _), hmisses⟩
  refine ⟨?_, ?_, fun writes => ?_⟩
  · obtain ⟨digest, digest', hfile, hclock, -⟩ := entries_askBoth [otherName]
    have hnone : ∀ d, Digests.Holds d [] := fun _ _ hx => absurd hx List.not_mem_nil
    obtain ⟨hhit, -⟩ := key _ _ _ hfile (.of_holds (List.nodup_singleton _) holds_other)
    obtain ⟨hmiss, hruns⟩ := key _ _ _ hclock (.of_holds List.nodup_nil (hnone _))
    have hnot : ¬(afterBoth [otherName]).Hits fromClock := fun h => nomatch (hmiss.1 h).1
    exact ⟨hhit.2 ⟨rfl, holds_other⟩, hnot, hruns hnot⟩
  · obtain ⟨digest, -, hfile, -⟩ := entries_askBoth [otherName, sampleName]
    obtain ⟨hhits, hruns⟩ := key _ _ _ hfile (noCollision_both rfl)
    have hnot : ¬(afterBoth [otherName, sampleName]).Hits fromFile := fun h => by
      have hold := (hhits.1 h).2 _ List.mem_cons_self
      cases (holds_both _ List.mem_cons_self).symm.trans hold
    exact ⟨hnot, hruns hnot⟩
  · obtain ⟨-, -, -, -, -, -, hasked⟩ := entries_askBoth writes
    obtain ⟨-, -, -, -, -, -, hcount⟩ :=
      Visits.answered (visits_run (askBoth writes) (start ⟨⟨.empty, .top⟩, ()⟩))
    rw [hasked] at hcount
    exact hcount

end Session

end ScarbCrates
