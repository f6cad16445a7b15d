import ScarbCrates.Proofs.CommandLine.Configuring
import ScarbCrates.Proofs.CommandLine.Summarizing
import ScarbCrates.Proofs.Database.Beginning
import ScarbCrates.Proofs.SourceRoot.EntryFile

/-!
# Two commands, one world

Crates and metadata are printed by two commands, which ask different questions of a new database.
Both refuse the manifest of another project, both run Scarb in the same way, and they are told the
same.  They differ in what they make of it if there is no metadata: one of them fails, and the other
prints no crates.  If the run of Scarb breaks off, neither of them comes to an exit code.

* `Orderly` — what is asked of the paths of a project.
* `CommandLine.Agree` — what both commands have in common.
* `CommandLine.commands_agree` — all manifests, environments, files and ways in which Scarb ends.
-/

namespace ScarbCrates

/-! ## Paths in order -/

namespace Path.Recordable

variable {p : Path}

/-- The lock file beside a manifest can be recorded if the manifest can. -/
lemma lock {lock : Path} (h : p.Recordable) (hlock : Manifest.lockPath? p = some lock) :
    lock.Recordable := by
  rw [Manifest.lockPath?, withName?] at hlock
  split_ifs at hlock
  obtain rfl := Option.some.inj hlock
  refine ⟨?_, h.encodable.parent.child ⟨"Scarb.lock", by decide⟩⟩
  have hnul := h.noNul
  rw [Disk.holdsNul_eq, List.any_eq_false] at hnul ⊢
  refine List.forall_mem_append.2 ⟨fun n hn => ?_, List.forall_mem_singleton.2 (by decide)⟩
  exact hnul n (List.mem_of_mem_dropLast hn)

end Path.Recordable

/-- **The paths of a project are in order:** its manifest has a final name and can be recorded, and
Scarb's document, if there is one, has no path with a byte zero. -/
structure Orderly (t : Toolchain) (w : World Machine) (p : Path) : Prop where
  hasName : p.hasName
  recordable : p.Recordable
  noNul : ∀ m, t.Yields p w m → ∀ q ∈ m.paths, Disk.holdsNul q = false

namespace Orderly

open Database

variable {t : Toolchain} {w : World Machine} {p : Path}

/-- There is a lock file beside the manifest, and both can be recorded. -/
lemma exists_lock (h : Orderly t w p) :
    ∃ lock, Manifest.lockPath? p = some lock ∧ ∀ f ∈ [p, lock], f.Recordable := by
  have hlock : Manifest.lockPath? p = some (p.parent.child Manifest.scarbLock) :=
    if_pos h.hasName
  exact ⟨_, hlock,
    List.forall_mem_cons.2 ⟨h.recordable, List.forall_mem_singleton.2 (h.recordable.lock hlock)⟩⟩

lemma fetchable (h : Orderly t w p) (hwhole : ¬∃ fault, t.BreaksOff p w fault) :
    Fetchable t w (.scarb p) := by
  obtain ⟨lock, hlock, hfirst⟩ := h.exists_lock
  refine (fetchable_iff hlock).2 ⟨?_, ?_⟩
  · rintro ⟨fault, hbroken⟩
    exact hwhole ⟨fault, Toolchain.metadata_eq_process_iff.1 hbroken⟩
  cases hm : (t.metadata p w).value.1 with
  | error fault => exact hfirst
  | ok m =>
      have hyields := Toolchain.metadata_eq_ok_iff.1 hm
      refine List.forall_mem_append.2 ⟨hfirst, fun f hf => ?_⟩
      have hmem := m.memberManifests_subset hf
      exact ⟨h.noNul m hyields f hmem, hyields.encodable f hmem⟩

lemma viewable (h : Orderly t w p) : Viewable (document? t w (.scarb p)) := by
  intro m hm f hf
  cases hresult : (t.metadata p w).value.1 with
  | error fault =>
      rw [document?, hresult] at hm
      cases hm
  | ok m' =>
      rw [document?, hresult] at hm
      obtain rfl := Option.some.inj hm
      exact h.noNul _ (Toolchain.metadata_eq_ok_iff.1 hresult) f (Metadata.sources_subset _ hf)

end Orderly

/-- The root of a crate is the directory of a source file, and a string if that is one. -/
lemma Database.encodable_root {d : Disk} {m : Metadata} (h : ∀ q ∈ m.paths, q.Encodable) :
    ∀ c ∈ cratesIn d (some m), c.root.Encodable := by
  intro crate hcrate
  obtain ⟨unit, hunit, hcrate⟩ := List.mem_flatMap.1 hcrate
  rw [Derivation.cratesOfUnit] at hcrate
  split_ifs at hcrate
  · cases hcrate
  · obtain ⟨c, hc, hcrate⟩ := List.mem_filterMap.1 hcrate
    rw [Derivation.crateOf] at hcrate
    split at hcrate
    · rename_i source hcheck
      obtain rfl := Option.some.inj hcrate
      obtain ⟨-, -, hroot, -⟩ := SourceRoot.exists_name_of_accepted hcheck
      show source.root.Encodable
      rw [hroot]
      exact (h _ (Metadata.sourcePath_mem_paths hunit hc)).parent
    · cases hcrate

namespace CommandLine

open Database

variable {t : Toolchain} {env : Environment} {homes users : Homes} {w : World Machine}
  {p q manifest : Path} {compact : Bool} {r r' : Result}

/-! ## What comes of a command -/

/-- The manifest is refused: nothing is printed, and nothing else happens. -/
def Refuses (w : World Machine) (r : Result) : Prop :=
  r.exit = .ok .configError ∧ r.stdout = "" ∧ r.world = w

/-- There is no metadata to print. -/
def Lacks (r : Result) : Prop := r.exit = .ok .backendError ∧ r.stdout = ""

/-- No crates are printed. -/
def PrintsNone (r : Result) : Prop := r.exit = .ok .success ∧ r.stdout = "[]\n"

/-- The command ends with a fault of the process, for which there is no exit code. -/
def BreaksWith (r : Result) (fault : ProcessFault) : Prop :=
  r.exit = .error (.query (.raised (.process fault))) ∧ r.stdout = ""

/-- **The two commands agree** about a project in a world: `r` is what the command for crates
leaves, and `r'` what the command for metadata leaves. -/
structure Agree (t : Toolchain) (w : World Machine) (p : Path) (r r' : Result) : Prop where
  /-- Both refuse the manifest of another project, and no other manifest. -/
  refused : (Refuses w r ↔ p.name? = some Manifest.cairoProjectToml) ∧
    (Refuses w r' ↔ p.name? = some Manifest.cairoProjectToml)
  /-- Both break off exactly if the run of Scarb does. -/
  broken : p.name? ≠ some Manifest.cairoProjectToml → ∀ fault,
    (BreaksWith r fault ↔ t.BreaksOff p w fault) ∧ (BreaksWith r' fault ↔ t.BreaksOff p w fault)
  /-- Otherwise one fails exactly if Scarb yields no metadata, and the other then prints no crates
  for want of it. -/
  unavailable : p.name? ≠ some Manifest.cairoProjectToml → (¬∃ fault, t.BreaksOff p w fault) →
    (Lacks r' ↔ ¬∃ m, t.Yields p w m) ∧ (PrintsNone r ∧ Underived t w p ↔ ¬∃ m, t.Yields p w m)
  /-- If there is metadata, both succeed, and each prints one document. -/
  printed : p.name? ≠ some Manifest.cairoProjectToml → ∀ m, t.Yields p w m →
    PrintsDocument (.ofList ((cratesIn r.world.disk (some m)).map Crate.toDatum)) r ∧
      PrintsDocument m.summary r'
  /-- Both start the same process, if any. -/
  started : r.world = r'.world ∧
    ∃ cs, r.world.outside.started = w.outside.started ++ cs ∧ cs.length ≤ 1

/-- The notices of a command are of no account. -/
lemma Agree.withNotices (h : Agree t w p r r') (ns ns' : List Notice) :
    Agree t w p { r with notices := ns } { r' with notices := ns' } where
  refused := h.refused
  broken := h.broken
  unavailable := h.unavailable
  printed hp m hm :=
    have ⟨hcrates, hmetadata⟩ := h.printed hp m hm
    ⟨⟨hcrates.exit, hcrates.document⟩, hmetadata.exit, hmetadata.document⟩
  started := h.started

/-! ## The commands -/

section Commands

/-- Nothing is asked about the manifest of another project. -/
lemma withProject_refused {α : Type}
    (h : Manifest.ofArgument homes w.disk.directory manifest = .ok (.cairoProject p))
    (query : Manifest → Query α) (finish : α → List Notice → World Machine → Result) :
    Refuses w (withProject homes w manifest query finish) := by
  rw [withProject, h]
  exact ⟨rfl, rfl, rfl⟩

variable (h : Manifest.ofArgument homes w.disk.directory manifest = .ok (.scarb p))
  (ho : Orderly t w p)

include h ho

/-- The command for crates prints those that a new database has. -/
lemma execute_crates (hwhole : ¬∃ fault, t.BreaksOff p w fault) (compact : Bool) :
    ∃ ns, execute t homes w (.crates manifest compact) =
      printing (.ofList ((cratesIn (t.metadata p w).value.2.disk
        (document? t w (.scarb p))).map Crate.toDatum)) (!compact) ns (t.metadata p w).value.2 := by
  obtain ⟨s, e, hrun, hworld, -⟩ := run_crates_start (ho.fetchable hwhole) ho.viewable
  refine ⟨s.notices, ?_⟩
  rw [execute, withProject, h]
  simp only [hrun, hworld]

/-- The command for metadata prints the summary of the document of a run, if there is one. -/
lemma execute_metadata (hwhole : ¬∃ fault, t.BreaksOff p w fault) :
    ∃ ns, execute t homes w (.metadata manifest) =
      (document? t w (.scarb p)).elim (silent (.ok .backendError) ns (t.metadata p w).value.2)
        fun m => printing m.summary true ns (t.metadata p w).value.2 := by
  obtain ⟨s, hrun, hworld⟩ := run_metadata_start (ho.fetchable hwhole)
  refine ⟨s.notices, ?_⟩
  rw [execute, withProject, h]
  simp only [hrun, hworld]
  cases document? t w (.scarb p) <;> rfl

/-- Both commands break off with the run. -/
lemma execute_of_breaksOff {fault : ProcessFault} (hbroken : t.BreaksOff p w fault)
    (compact : Bool) :
    (∃ ns, execute t homes w (.crates manifest compact) =
        silent (.error (.query (.raised (.process fault)))) ns (t.metadata p w).value.2) ∧
      ∃ ns, execute t homes w (.metadata manifest) =
        silent (.error (.query (.raised (.process fault)))) ns (t.metadata p w).value.2 := by
  obtain ⟨lock, hlock, hfirst⟩ := ho.exists_lock
  have hn : ∀ f ∈ [p, lock], Disk.holdsNul f = false := fun f hf => (hfirst f hf).noNul
  have hfault := Toolchain.metadata_eq_process_iff.2 hbroken
  obtain ⟨s, hrun, hworld⟩ := run_crates_start_of_broken hlock hn hfault
  obtain ⟨s', hrun', hworld'⟩ := run_metadata_start_of_broken hlock hn hfault
  refine ⟨⟨s.notices, ?_⟩, s'.notices, ?_⟩
  · rw [execute, withProject, h]
    simp only [hrun, hworld]
  · rw [execute, withProject, h]
    simp only [hrun', hworld']

end Commands

lemma printsNone_printing (pretty : Bool) (ns : List Notice) (w : World Machine) :
    PrintsNone (printing (.ofList []) pretty ns w) := by
  have hempty : rendered (.ofList []) pretty = .ok "[]\n" := by
    cases pretty <;> decide
  rw [printing, hempty]
  exact ⟨rfl, rfl⟩

/-! ## The four ways in which they agree -/

lemma agree_of_refuses (hp : p.name? = some Manifest.cairoProjectToml) (h : Refuses w r)
    (h' : Refuses w r') : Agree t w p r r' where
  refused := ⟨iff_of_true h hp, iff_of_true h' hp⟩
  broken hne := absurd hp hne
  unavailable hne := absurd hp hne
  printed hne := absurd hp hne
  started := ⟨h.2.2.trans h'.2.2.symm, [], by rw [h.2.2, List.append_nil], Nat.zero_le 1⟩

/-- What is left of a run, in both commands. -/
lemma started_of_world (h : r.world = (t.metadata p w).value.2)
    (h' : r'.world = (t.metadata p w).value.2) : r.world = r'.world ∧
      ∃ cs, r.world.outside.started = w.outside.started ++ cs ∧ cs.length ≤ 1 := by
  obtain ⟨cs, hcs, hlength⟩ := started_metadata t p w
  exact ⟨h.trans h'.symm, cs, by rw [h, hcs], hlength⟩

/-- A run breaks off in one way, and then yields nothing. -/
lemma agree_of_breaksWith {fault : ProcessFault} (hp : p.name? ≠ some Manifest.cairoProjectToml)
    (hbroken : t.BreaksOff p w fault) (hcrates : BreaksWith r fault)
    (hmetadata : BreaksWith r' fault) (h : r.world = (t.metadata p w).value.2)
    (h' : r'.world = (t.metadata p w).value.2) : Agree t w p r r' where
  refused := by
    refine ⟨iff_of_false (fun hr => ?_) hp, iff_of_false (fun hr => ?_) hp⟩
    · cases hcrates.1.symm.trans hr.1
    · cases hmetadata.1.symm.trans hr.1
  broken _ fault' := by
    have hsame : ∀ {x : Result}, BreaksWith x fault →
        (BreaksWith x fault' ↔ t.BreaksOff p w fault') := by
      refine fun hx => ⟨fun hr => ?_, fun hr => ?_⟩
      · cases hx.1.symm.trans hr.1
        exact hbroken
      · have hfault := (Toolchain.metadata_eq_process_iff.2 hbroken).symm.trans
          (Toolchain.metadata_eq_process_iff.2 hr)
        cases hfault
        exact hx
    exact ⟨hsame hcrates, hsame hmetadata⟩
  unavailable _ hwhole := absurd ⟨fault, hbroken⟩ hwhole
  printed _ m hm := by
    cases (Toolchain.metadata_eq_process_iff.2 hbroken).symm.trans
      (Toolchain.metadata_eq_ok_iff.2 hm)
  started := started_of_world h h'

lemma agree_of_lacks (hp : p.name? ≠ some Manifest.cairoProjectToml)
    (hwhole : ¬∃ fault, t.BreaksOff p w fault) (hno : ¬∃ m, t.Yields p w m)
    (hcrates : PrintsNone r) (hunderived : Underived t w p) (hmetadata : Lacks r')
    (h : r.world = (t.metadata p w).value.2) (h' : r'.world = (t.metadata p w).value.2) :
    Agree t w p r r' where
  refused := by
    refine ⟨iff_of_false (fun hr => ?_) hp, iff_of_false (fun hr => ?_) hp⟩
    · cases hcrates.1.symm.trans hr.1
    · cases hmetadata.1.symm.trans hr.1
  broken _ fault := by
    have hno : ¬t.BreaksOff p w fault := fun hbroken => hwhole ⟨fault, hbroken⟩
    refine ⟨iff_of_false (fun hr => ?_) hno, iff_of_false (fun hr => ?_) hno⟩
    · cases hcrates.1.symm.trans hr.1
    · cases hmetadata.1.symm.trans hr.1
  unavailable _ _ := ⟨iff_of_true hmetadata hno, iff_of_true ⟨hcrates, hunderived⟩ hno⟩
  printed _ m hm := absurd ⟨m, hm⟩ hno
  started := started_of_world h h'

lemma agree_of_prints {m : Metadata} (hp : p.name? ≠ some Manifest.cairoProjectToml)
    (hm : t.Yields p w m) (hunderived : ¬Underived t w p)
    (hcrates : PrintsDocument
      (.ofList ((cratesIn (t.metadata p w).value.2.disk (some m)).map Crate.toDatum)) r)
    (hmetadata : PrintsDocument m.summary r') (h : r.world = (t.metadata p w).value.2)
    (h' : r'.world = (t.metadata p w).value.2) : Agree t w p r r' where
  refused := by
    refine ⟨iff_of_false (fun hr => ?_) hp, iff_of_false (fun hr => ?_) hp⟩
    · cases hcrates.exit.symm.trans hr.1
    · cases hmetadata.exit.symm.trans hr.1
  broken _ fault := by
    have hno : ¬t.BreaksOff p w fault := fun hbroken => by
      cases (Toolchain.metadata_eq_process_iff.2 hbroken).symm.trans
        (Toolchain.metadata_eq_ok_iff.2 hm)
    refine ⟨iff_of_false (fun hr => ?_) hno, iff_of_false (fun hr => ?_) hno⟩
    · cases hcrates.exit.symm.trans hr.1
    · cases hmetadata.exit.symm.trans hr.1
  unavailable _ _ := by
    have hyields : ¬¬∃ m, t.Yields p w m := not_not_intro ⟨m, hm⟩
    refine ⟨iff_of_false (fun hr => ?_) hyields, iff_of_false (fun hr => hunderived hr.2) hyields⟩
    cases hmetadata.exit.symm.trans hr.1
  printed _ m' hm' := by
    -- A run yields one document at most.
    have hresult := (Toolchain.metadata_eq_ok_iff.2 hm).symm.trans
      (Toolchain.metadata_eq_ok_iff.2 hm')
    obtain rfl := Except.ok.inj hresult
    rw [h]
    exact ⟨hcrates, hmetadata⟩
  started := started_of_world h h'

/-- The commands agree about every Scarb project whose paths are in order and whose run does not
break off. -/
lemma agree_of_scarb
    (hmanifest : Manifest.ofArgument homes w.disk.directory manifest = .ok (.scarb p)) (hp : p.name? ≠ some Manifest.cairoProjectToml)
    (ho : Orderly t w p) (hwhole : ¬∃ fault, t.BreaksOff p w fault) (compact : Bool) :
    Agree t w p (execute t homes w (.crates manifest compact))
      (execute t homes w (.metadata manifest)) := by
  obtain ⟨ns, hcrates⟩ := execute_crates (t := t) hmanifest ho hwhole compact
  obtain ⟨ns', hmetadata⟩ := execute_metadata (t := t) hmanifest ho hwhole
  have hunderived := underived_iff (ho.fetchable hwhole) ho.viewable
  rw [hcrates, hmetadata]
  cases hm : (t.metadata p w).value.1 with
  | error fault =>
      have hnone : document? t w (.scarb p) = none := by rw [document?, hm]; rfl
      rw [hnone] at hunderived ⊢
      refine agree_of_lacks hp hwhole ?_ (printsNone_printing _ _ _) (hunderived.2 rfl) ⟨rfl, rfl⟩
        (world_printing _ _ _ _) rfl
      rintro ⟨m, hyields⟩
      cases hm.symm.trans (Toolchain.metadata_eq_ok_iff.2 hyields)
  | ok m =>
      have hsome : document? t w (.scarb p) = some m := by rw [document?, hm]; rfl
      have hyields := Toolchain.metadata_eq_ok_iff.1 hm
      have hversion : Json.fitsWord m.version = true := by
        rw [hyields.version]
        decide
      have hworkspace : ∀ q ∈ m.workspace.paths, q.Encodable := fun q hq =>
        hyields.encodable q (Metadata.mem_paths_of_workspace hq)
      rw [hsome, iff_false_intro (Option.some_ne_none m)] at hunderived
      rw [hsome]
      exact agree_of_prints hp hyields hunderived.1
        (printsDocument_crates (encodable_root hyields.encodable) _ _ _)
        (printsDocument_of_printable (Metadata.printable_summary hversion hworkspace) _ _ _)
        (world_printing _ _ _ _) (world_printing _ _ _ _)

/-- The commands agree about every project whose paths are in order. -/
lemma agree_execute (hq : Path.expandHome homes manifest = .ok q)
    (ho : Orderly t w (q.absoluteFrom w.disk.directory)) (compact : Bool) :
    Agree t w (q.absoluteFrom w.disk.directory) (execute t homes w (.crates manifest compact))
      (execute t homes w (.metadata manifest)) := by
  have hmanifest : Manifest.ofArgument homes w.disk.directory manifest =
      .ok (Manifest.ofPath (q.absoluteFrom w.disk.directory)) := by
    rw [Manifest.ofArgument, hq]
    rfl
  generalize q.absoluteFrom w.disk.directory = p at ho hmanifest
  rw [Manifest.ofPath] at hmanifest
  split_ifs at hmanifest with hp
  · exact agree_of_refuses hp (withProject_refused hmanifest _ _) (withProject_refused hmanifest _ _)
  · by_cases hbroken : ∃ fault, t.BreaksOff p w fault
    · obtain ⟨fault, hbroken⟩ := hbroken
      obtain ⟨⟨ns, hcrates⟩, ns', hmetadata⟩ :=
        execute_of_breaksOff (t := t) hmanifest ho hbroken compact
      rw [hcrates, hmetadata]
      exact agree_of_breaksWith hp hbroken ⟨rfl, rfl⟩ ⟨rfl, rfl⟩ rfl rfl
    · exact agree_of_scarb hmanifest hp ho hbroken compact

/-- Command lines that leave Scarb to the environment have the same configuration of it. -/
lemma Starts.scarbPath_eq {words words' : List String} {config config' : Config}
    {request request' : Request} (h : Starts env words config request)
    (h' : Starts env words' config' request') (hw : LeavesScarb words)
    (hw' : LeavesScarb words') : config.scarbPath = config'.scarbPath := by
  rw [h.scarbPath hw, h'.scarbPath hw']

/-- **The commands agree on the world.**  Two command lines ask for the crates and the metadata of
the same manifest, with the same configuration of Scarb.  The manifest may be named in any way, in a
home directory or from the working directory, and need not exist.  Then both command lines run, and
they agree, whatever the files are and whatever Scarb does.  Where an operating system runs the
processes, both break off because of a byte zero in the executable, or because an output of Scarb is
no text. -/
theorem commands_agree {words words' : List String} {config config' : Config}
    (h : Starts env words config (.crates manifest compact))
    (h' : Starts env words' config' (.metadata manifest))
    (hscarb : config.scarbPath = config'.scarbPath)
    (hq : Path.expandHome (homesIn users env) manifest = .ok q) (located : Option String)
    (ho : Orderly (toolchainOf config env located) w (q.absoluteFrom w.disk.directory)) :
    (∃ r r', run users env located w words = .ok r ∧ run users env located w words' = .ok r' ∧
      Agree (toolchainOf config env located) w (q.absoluteFrom w.disk.directory) r r') ∧
    ∀ system, w.outside.behaviour = .ofSystem system → ∀ fault,
      (toolchainOf config env located).BreaksOff (q.absoluteFrom w.disk.directory) w fault ↔
        (toolchainOf config env located).Disrupted (q.absoluteFrom w.disk.directory) w system
          fault := by
  obtain ⟨level, hrun⟩ := h.run_eq users located w
  obtain ⟨level', hrun'⟩ := h'.run_eq users located w
  have hsame : toolchainOf config' env located = toolchainOf config env located := by
    rw [toolchainOf, toolchainOf, hscarb]
  rw [hsame] at hrun'
  refine ⟨⟨_, _, hrun, hrun', (agree_execute hq ho compact).withNotices _ _⟩, ?_⟩
  exact fun system hw fault => Toolchain.breaksOff_iff hw ho.recordable.noNul

/-! ## A small workspace -/

/-- An environment that names Scarb. -/
def sampleEnvironment : Environment := [(Config.scarbVariable, "scarb")]

/-- The configuration of a session in it. -/
def sampleConfig : Config := ⟨some "scarb", "WARNING"⟩

/-- The sample manifest is run with Scarb there as well. -/
lemma outcome_sampleEnvironment :
    ((toolchainOf sampleConfig sampleEnvironment none).metadata (topFile sampleName)
      sampleWorld).value.1 = Toolchain.judge sampleEnding := by
  rw [← outcome_sampleManifest (w := sampleWorld) ⟨rfl, rfl, .inl rfl⟩, Toolchain.outcome_eq,
    Toolchain.outcome_eq]
  rfl

lemma orderly_sample :
    Orderly (toolchainOf sampleConfig sampleEnvironment none) sampleWorld (topFile sampleName) where
  hasName := rfl
  recordable := ⟨by decide, _, rfl⟩
  noNul m hm := by
    have hpaths : (Toolchain.judge sampleEnding).toOption.map
        (fun m => m.paths.any Disk.holdsNul) = some false := by
      rw [sampleEnding, Toolchain.judge, Scan.ofText, String.toList_ofList]
      decide +kernel
    have hjudge := outcome_sampleEnvironment.symm.trans (Toolchain.metadata_eq_ok_iff.2 hm)
    rw [hjudge] at hpaths
    simpa using Option.some.inj hpaths

/-- An operating system on which Scarb succeeds, and prints one byte that is no text. -/
def garblingSystem : System := fun _ files => (files, .exited 0 [0xFF] [])

/-- No files, on this system. -/
def garbledWorld : World Machine := ⟨⟨.empty, .top⟩, ⟨.ofSystem garblingSystem, []⟩⟩

/-- What is wrong with the output. -/
def garbledFault : ProcessFault := .undecodable ⟨0, [0xFF], .startByte⟩

lemma breaksOff_garbled : (toolchainOf sampleConfig sampleEnvironment none).BreaksOff
    (topFile sampleName) garbledWorld garbledFault := by
  have hspawns : (toolchainOf sampleConfig sampleEnvironment none).Spawns (topFile sampleName)
      garbledWorld sampleCommand := by
    refine ⟨⟨⟨"scarb", rfl, rfl⟩, by decide +kernel⟩, fun e he => ?_⟩
    obtain rfl : "scarb" = e := Except.ok.inj he
    decide
  exact (Toolchain.breaksOff_iff rfl (by decide)).2 (.undecodable hspawns rfl (.inl (by decide)))

lemma orderly_garbled : Orderly (toolchainOf sampleConfig sampleEnvironment none) garbledWorld
    (topFile sampleName) where
  hasName := rfl
  recordable := ⟨by decide, _, rfl⟩
  noNul m hm := by
    cases (Toolchain.metadata_eq_process_iff.2 breaksOff_garbled).symm.trans
      (Toolchain.metadata_eq_ok_iff.2 hm)

/-- A user whose home directory is `/`. -/
def sampleUsers : Homes := ⟨none, fun user => if user = [0x75] then some [slash] else none⟩

/-- Both commands print a document about the sample project, which is named from the directory `/`
or from a home directory.  Where Scarb prints a byte that is no text, both of them break off. -/
theorem commands_agree_sample :
    (∃ r r' m, run sampleUsers sampleEnvironment none sampleWorld ["crates", "a"] = .ok r ∧
      run sampleUsers sampleEnvironment none sampleWorld ["metadata", "a"] = .ok r' ∧
      PrintsDocument (.ofList ((cratesIn r.world.disk (some m)).map Crate.toDatum)) r ∧
      PrintsDocument m.summary r') ∧
    ∃ r r', run sampleUsers sampleEnvironment none garbledWorld ["crates", "~u/a"] = .ok r ∧
      run sampleUsers sampleEnvironment none garbledWorld ["metadata", "~u/a"] = .ok r' ∧
      BreaksWith r garbledFault ∧ BreaksWith r' garbledFault := by
  have hcrates : ∀ s ∈ ["a", "~u/a"], Starts sampleEnvironment ["crates", s] sampleConfig
      (.crates (Path.ofString s) false) := by
    have hall : ∀ s ∈ ["a", "~u/a"], asksEverywhere? ["crates", s] = none ∧
        session sampleEnvironment ["crates", s] = .ok (sampleConfig, ["crates", s]) ∧
          Request.ofWords ["crates", s] = .ok (.crates (Path.ofString s) false) := by
      decide +kernel
    exact fun s hs => ⟨(hall s hs).1, _, (hall s hs).2⟩
  have hmetadata : ∀ s ∈ ["a", "~u/a"], Starts sampleEnvironment ["metadata", s] sampleConfig
      (.metadata (Path.ofString s)) := by
    have hall : ∀ s ∈ ["a", "~u/a"], asksEverywhere? ["metadata", s] = none ∧
        session sampleEnvironment ["metadata", s] = .ok (sampleConfig, ["metadata", s]) ∧
          Request.ofWords ["metadata", s] = .ok (.metadata (Path.ofString s)) := by
      decide +kernel
    exact fun s hs => ⟨(hall s hs).1, _, (hall s hs).2⟩
  constructor
  · have hmanifest : (Path.ofString "a").absoluteFrom sampleWorld.disk.directory =
        topFile sampleName := by
      decide +kernel
    obtain ⟨m, hm, -⟩ := judge_sampleEnding
    have hyields := Toolchain.metadata_eq_ok_iff.1 (outcome_sampleEnvironment.trans hm)
    have hc := hcrates "a" (by decide)
    have hm := hmetadata "a" (by decide)
    have hq : Path.expandHome (homesIn sampleUsers sampleEnvironment) (Path.ofString "a") =
        .ok (Path.ofString "a") := by
      decide +kernel
    obtain ⟨⟨r, r', hrun, hrun', hagree⟩, -⟩ := commands_agree hc hm
      (hc.scarbPath_eq hm (by decide) (by decide)) hq none (hmanifest ▸ orderly_sample)
    rw [hmanifest] at hagree
    exact ⟨r, r', m, hrun, hrun', hagree.printed (by decide) m hyields⟩
  · have hc := hcrates "~u/a" (by decide)
    have hm := hmetadata "~u/a" (by decide)
    have hq : Path.expandHome (homesIn sampleUsers sampleEnvironment) (Path.ofString "~u/a") =
        .ok (topFile sampleName) := by
      decide +kernel
    obtain ⟨⟨r, r', hrun, hrun', hagree⟩, -⟩ := commands_agree (w := garbledWorld) hc hm
      (hc.scarbPath_eq hm (by decide) (by decide)) hq none orderly_garbled
    obtain ⟨hbroken, hbroken'⟩ := hagree.broken (by decide) garbledFault
    exact ⟨r, r', hrun, hrun', hbroken.2 breaksOff_garbled, hbroken'.2 breaksOff_garbled⟩

end CommandLine

end ScarbCrates
