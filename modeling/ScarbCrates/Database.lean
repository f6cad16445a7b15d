import ScarbCrates.Config
import ScarbCrates.Derivation
import ScarbCrates.Manifest
import ScarbCrates.Query.Session
import ScarbCrates.Toolchain.Run

/-!
# The project database

Two queries about a project, each answered once as long as nothing that went into the answer has
changed: the metadata that Scarb has for it, and the crates that are derived from the metadata.

* `Database.metadata`, `Database.crates` — the queries.
* `Database.reportFile`, `Database.reportSynthetic`, `Database.reportUntracked` — what other
  queries can say about themselves; outside of a query there is nobody to tell.
-/

namespace ScarbCrates

namespace Database

/-! ## Questions and answers -/

/-- What a question is about: a project, or something with a name of its own. -/
inductive Subject
  | project (m : Manifest)
  | named (s : String)
deriving DecidableEq

instance : QueryKey Subject where
  shown
    | .project m => m.path.shown
    | .named s => s

/-- What a query reports about itself: files, a durability, and whether it has read something that
no digest captures. -/
structure Reports where
  files : List Path
  durability : Option Durability
  untracked : Bool

/-- An answer: to one of the two queries, or to one that only reports. -/
inductive Answer
  | metadata (m : Option Metadata)
  | crates (cs : List Crate)
  | reported (r : Reports)
deriving Inhabited

/-- Why a query fails: a manifest whose name cannot be replaced has no lock file, or running Scarb
breaks off. -/
inductive ProjectFault
  | noName (path : Path)
  | process (fault : ProcessFault)
deriving DecidableEq

/-- A fault in words. -/
def ProjectFault.message : ProjectFault → String
  | .noName path => Manifest.noNameMessage path
  | .process fault => fault.message

/-- A computation over the database. -/
abbrev Query := Computation Subject Machine Answer ProjectFault

/-- The state of a database. -/
abbrev State := Session Subject Machine Answer

/-- The name of the metadata query. -/
def metadataQuery : String := "scarb_metadata"

/-- The name of the crates query. -/
def cratesQuery : String := "project_crates"

/-! ## Reports -/

/-- The running query depends on a file. -/
def reportFile (p : Path) : Query Unit := Computation.declareFile p

/-- The running query's answer is no more durable than a level. -/
def reportSynthetic (level : Durability) : Query Unit := Computation.lowerTo level

/-- The running query's answer holds for once only. -/
def reportUntracked : Query Unit := Computation.markUntracked

/-! ## Metadata -/

/-- The part of the program that the notices are from. -/
def fetchOrigin : String := "project_model.fetch"

/-- Reports some files in their order. -/
def reportFiles : List Path → Query Unit
  | [] => pure ()
  | p :: rest => do
    reportFile p
    reportFiles rest

/-- The outcome of a run of Scarb.  A failed one is not remembered, since what caused it rarely
shows in a file; a successful one depends on the manifests of all members.  With a run that breaks
off the query does so too. -/
def settleFetch (manifest : Path) : Except ToolchainFault Metadata → Query (Option Metadata)
  | .error fault =>
    match fault.process? with
    | some fault => Computation.fail (.raised (.process fault))
    | none => do
      reportUntracked
      Computation.note .error fetchOrigin
        ("failed to reload scarb workspace: " ++ manifest.shown ++ ": " ++ fault.message)
      return none
  | .ok m => do
    reportFiles (m.memberPackages.map (·.manifestPath))
    return some m

/-- **Fetches the metadata of a project.**  The manifest and the lock file are reported before
Scarb runs, so that a change during the run is noticed. -/
def fetch (t : Toolchain) : Manifest → Query (Option Metadata)
  | .cairoProject p => do
    Computation.note .warning fetchOrigin
      ("attempted to get scarb metadata for non-scarb project: " ++ p.shown)
    return none
  | .scarb p => do
    reportFile p
    match Manifest.lockPath? p with
    | none => Computation.fail (.raised (.noName p))
    | some lock =>
      reportFile lock
      reportSynthetic .low
      let outcome ← Computation.act (t.metadata p)
      settleFetch p outcome

/-- The computation that answers the metadata query. -/
def computeMetadata (t : Toolchain) (m : Manifest) : Query Answer := do
  let fetched ← fetch t m
  return .metadata fetched

/-- The metadata in an answer. -/
def Answer.metadata? : Answer → Option Metadata
  | .metadata m => m
  | _ => none

/-- **The metadata of a project,** unless Scarb has none. -/
def metadata (t : Toolchain) (m : Manifest) : Query (Option Metadata) := do
  let answer ← Computation.ask ⟨metadataQuery, .project m⟩ (computeMetadata t m)
  return answer.metadata?

/-! ## Crates -/

/-- A derivation as a step of a query. -/
def derive (m : Metadata) : Query (List Crate) := do
  let outcome ← Computation.act fun w => do
    let r ← (Derivation.crates w.disk m).run
    return (r, w)
  Computation.ofExcept (outcome.mapError fun fault => .input (.access fault))

/-- The computation that answers the crates query. -/
def computeCrates (t : Toolchain) (m : Manifest) : Query Answer := do
  match ← metadata t m with
  | none => return .crates []
  | some doc =>
    let cs ← derive doc
    return .crates cs

/-- The crates in an answer. -/
def Answer.crateList : Answer → List Crate
  | .crates cs => cs
  | _ => []

/-- **The crates of a project;** without metadata there are none. -/
def crates (t : Toolchain) (m : Manifest) : Query (List Crate) := do
  let answer ← Computation.ask ⟨cratesQuery, .project m⟩ (computeCrates t m)
  return answer.crateList

/-! ## Other queries -/

/-- Makes all reports. -/
def Reports.make (r : Reports) : Query Unit := do
  reportFiles r.files
  match r.durability with
  | none => pure ()
  | some level => reportSynthetic level
  if r.untracked then reportUntracked

/-- The computation of a query that does nothing but report. -/
def computeReports (r : Reports) : Query Answer := do
  r.make
  return .reported r

/-- The reports in an answer. -/
def Answer.reports : Answer → Reports
  | .reported r => r
  | _ => ⟨[], none, false⟩

/-- **The reports that a query has made,** now or when its answer was stored. -/
def reporting (query key : String) (r : Reports) : Query Reports := do
  let answer ← Computation.ask ⟨query, .named key⟩ (computeReports r)
  return answer.reports

/-! ## The database as a whole -/

/-- The toolchain of a configured database. -/
def toolchainOf (c : Config) (env : Environment) (located : Option String) : Toolchain :=
  ⟨c.scarbPath, env, located⟩

/-- A database that has answered nothing. -/
def start (w : World Machine) : State := Session.start w

/-- The durability up to which answers are dropped unless another one is given. -/
def defaultInvalidation : Durability := .low

/-- The stored answer to a question. -/
def peek (s : State) (query : String) (subject : Subject) : Option (Entry Answer) :=
  s.cache.entry? ⟨query, subject⟩

end Database

end ScarbCrates
