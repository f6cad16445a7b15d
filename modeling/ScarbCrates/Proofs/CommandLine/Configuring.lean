import ScarbCrates.CommandLine.Run
import ScarbCrates.Proofs.Datum.Canonical
import ScarbCrates.Proofs.Text.Trimming
import ScarbCrates.Proofs.Toolchain.Outcome

/-!
# Two readings of the environment

A session takes the values of its variables as they stand; a configuration that is read from the
environment has no white space at the ends of its values, and a blank value counts as none.  The
Scarb that is run can differ for that reason, and for no other.

* `CommandLine.Starts` — what the words of a command line start.
* `CommandLine.takeOptions_scarb` — words that do not name Scarb leave it to the environment.
* `CommandLine.executable_eq_iff` — when both readings run the same Scarb.
-/

namespace ScarbCrates

/-! ## Values of variables -/

namespace Text

lemma trim_trim (s : String) : trim (trim s) = trim s := by
  rw [trim, trim, String.toList_ofList, trimmed_trimmed]

end Text

namespace Environment

variable {env : Environment} {name : String}

lemma value?_of_get? {raw : String} (h : env.get? name = some raw) :
    env.value? name = if Text.trim raw = "" then none else some (Text.trim raw) := by
  simp only [value?, h, String.isEmpty_iff]

/-- A value is neither blank nor padded. -/
lemma trim_of_value? {s : String} (h : env.value? name = some s) : Text.trim s = s ∧ s ≠ "" := by
  cases hraw : env.get? name with
  | none => simp [value?, hraw] at h
  | some raw =>
      rw [value?_of_get? hraw] at h
      split_ifs at h with hblank
      obtain rfl := Option.some.inj h
      exact ⟨Text.trim_trim raw, hblank⟩

end Environment

namespace CommandLine

/-! ## Words that do not name Scarb -/

/-- No word that counts as an option names Scarb. -/
def LeavesScarb (words : List String) : Prop :=
  ∀ w ∈ words.takeWhile (· ≠ endOfOptions), (Named.ofWord? w).map Named.name ≠ some "--scarb"

instance (words : List String) : Decidable (LeavesScarb words) :=
  inferInstanceAs (Decidable (∀ w ∈ words.takeWhile (· ≠ endOfOptions), _))

lemma LeavesScarb.tail {w : String} {rest : List String} (h : LeavesScarb (w :: rest))
    (hw : w ≠ endOfOptions) : LeavesScarb rest := by
  intro x hx
  refine h x ?_
  rw [List.takeWhile_cons_of_pos (by simpa using hw)]
  exact List.mem_cons_of_mem _ hx

/-- An option takes no word or one, which is none that ends the options. -/
lemma rest_of_optionValue? {name w v : String} {rest rest' : List String}
    (h : optionValue? name w rest = .ok (some (v, rest'))) :
    (Named.ofWord? w).map Named.name = some name ∧
      (rest' = rest ∨ rest = v :: rest' ∧ v ≠ endOfOptions) := by
  rw [optionValue?] at h
  cases ho : Named.ofWord? w with
  | none => simp [ho] at h
  | some o =>
      by_cases hname : o.name = name
      · refine ⟨congrArg some hname, ?_⟩
        simp only [ho, hname, ne_eq, not_true_eq_false, if_false] at h
        cases hv : o.value with
        | some v' =>
            rw [hv] at h
            simp only [Except.ok.injEq, Option.some.injEq, Prod.mk.injEq] at h
            exact .inl h.2.symm
        | none =>
            cases rest with
            | nil => simp [hv] at h
            | cons v' rest =>
                rw [hv] at h
                simp only at h
                split_ifs at h with hlike
                simp only [Except.ok.injEq, Option.some.injEq, Prod.mk.injEq] at h
                obtain ⟨rfl, rfl⟩ := h
                refine .inr ⟨rfl, ?_⟩
                rintro rfl
                exact hlike (by decide)
      · simp [ho, hname] at h

/-- **Words that do not name Scarb** leave it as it was. -/
lemma takeOptions_scarb {fuel : Nat} {o o' : Options} {words rest : List String}
    (h : takeOptions fuel o words = .ok (o', rest)) (hw : LeavesScarb words) :
    o'.scarb = o.scarb := by
  induction fuel generalizing o o' words rest with
  | zero =>
      rw [takeOptions, Except.ok.injEq, Prod.mk.injEq] at h
      rw [h.1]
  | succ fuel ih =>
      cases words with
      | nil =>
          rw [takeOptions, Except.ok.injEq, Prod.mk.injEq] at h
          rw [h.1]
      | cons w words =>
          rw [takeOptions] at h
          split_ifs at h with hend
          · rw [Except.ok.injEq, Prod.mk.injEq] at h
            rw [h.1]
          · obtain ⟨level?, hlevel?, h⟩ := exists_of_bind_eq_ok h
            have hrest := hw.tail hend
            rcases level? with _ | ⟨v, words'⟩
            · obtain ⟨scarb?, hscarb?, h⟩ := exists_of_bind_eq_ok h
              rcases scarb? with _ | ⟨v, words'⟩
              · obtain ⟨⟨o₁, words₁⟩, hmore, h⟩ := exists_of_bind_eq_ok h
                obtain rfl := congrArg Prod.fst (Except.ok.inj h)
                exact ih hmore hrest
              · -- The word names Scarb, which none does.
                refine absurd (rest_of_optionValue? hscarb?).1 (hw w ?_)
                rw [List.takeWhile_cons_of_pos (by simpa using hend)]
                exact List.mem_cons_self
            · obtain ⟨level, -, h⟩ := exists_of_bind_eq_ok h
              have hleaves : LeavesScarb words' := by
                rcases (rest_of_optionValue? hlevel?).2 with rfl | ⟨rfl, hv⟩
                · exact hrest
                · exact hrest.tail hv
              have hmore := ih h hleaves
              exact hmore

/-! ## What is started -/

/-- **What a command line starts:** a request, in a session with a configuration. -/
structure Starts (env : Environment) (words : List String) (config : Config) (r : Request) :
    Prop where
  noHelp : asksEverywhere? words = none
  taken : ∃ rest, session env words = .ok (config, rest) ∧ Request.ofWords rest = .ok r

namespace Starts

variable {env : Environment} {words : List String} {config : Config} {r : Request}

/-- The request is done with the configured toolchain. -/
lemma run_eq (h : Starts env words config r) (users : Homes) (located : Option String)
    (w : World Machine) : ∃ level, run users env located w words =
      .ok { execute (Database.toolchainOf config env located) (homesIn users env) w r with
            notices := Notice.atLeast level (execute (Database.toolchainOf config env located)
              (homesIn users env) w r).notices } := by
  obtain ⟨rest, hsession, hrequest⟩ := h.taken
  refine ⟨(Level.ofName? config.logLevel).getD .warning, ?_⟩
  rw [run, h.noHelp]
  simp only [hsession, bind, Except.bind, hrequest]
  rfl

lemma scarbPath (h : Starts env words config r) (hw : LeavesScarb words) :
    config.scarbPath = env.get? Config.scarbVariable := by
  obtain ⟨rest, hsession, -⟩ := h.taken
  rw [session] at hsession
  obtain ⟨⟨o, rest'⟩, htake, hsession⟩ := exists_of_bind_eq_ok hsession
  have hscarb := takeOptions_scarb htake hw
  simp only at hscarb hsession
  split_ifs at hsession
  obtain ⟨rfl, -⟩ := Prod.mk.inj (Except.ok.inj hsession)
  show o.scarb.or _ = _
  rw [hscarb]
  rfl

end Starts

end CommandLine

/-! ## Both readings -/

namespace Config

/-- **The variable reads the same as it stands and without blanks:** it is not padded, or it is
blank, nothing else names Scarb, and the search path has a Scarb of just that name. -/
def ReadsAlike (env : Environment) (located : Option String) : Prop :=
  ∀ raw, env.get? scarbVariable = some raw →
    Text.trim raw = raw ∨
      Text.trim raw = "" ∧ env.value? Toolchain.scarbVariable = none ∧ located = some raw

variable {env : Environment} {located : Option String} {c : Config}

lemma readsAlike_of_get? {raw : String} (h : env.get? scarbVariable = some raw) :
    ReadsAlike env located ↔ Text.trim raw = raw ∨
      Text.trim raw = "" ∧ env.value? Toolchain.scarbVariable = none ∧ located = some raw := by
  simp [ReadsAlike, h]

/-- The Scarb that is run if none is configured: the one that the environment names, else the one
on the search path. -/
def fallback (env : Environment) (located : Option String) : Except ToolchainFault String :=
  match env.value? Toolchain.scarbVariable, located with
  | some path, _ => .ok path
  | none, some path => .ok path
  | none, none => .error .notFound

/-- Only the search path gives a blank name. -/
lemma fallback_eq_blank_iff {raw : String} (hblank : Text.trim raw = "") (hraw : raw ≠ "") :
    .ok raw = fallback env located ↔
      env.value? Toolchain.scarbVariable = none ∧ located = some raw := by
  unfold fallback
  cases hscarb : env.value? Toolchain.scarbVariable with
  | none => cases located <;> simp [eq_comm]
  | some s =>
      obtain ⟨htrim, hs⟩ := Environment.trim_of_value? hscarb
      have hne : raw ≠ s := by
        rintro rfl
        exact hraw (htrim.symm.trans hblank)
      simp [hne]

lemma executable_of_none (h : Toolchain.nonEmpty? c.scarbPath = none) :
    (Database.toolchainOf c env located).executable = fallback env located := by
  simp only [Toolchain.executable, Database.toolchainOf, fallback, h]
  cases env.value? Toolchain.scarbVariable <;> cases located <;> rfl

/-- A configured Scarb goes before all others. -/
lemma executable_of_some {s : String} (h : c.scarbPath = some s) (hs : s ≠ "") :
    (Database.toolchainOf c env located).executable = .ok s := by
  have hconfigured : Toolchain.nonEmpty? c.scarbPath = some s := by
    simp [h, Toolchain.nonEmpty?, hs]
  rw [Toolchain.executable, Database.toolchainOf]
  simp only [hconfigured]

end Config

namespace CommandLine

open Config in
/-- **The Scarb of a session,** with which its request is done, and that of the configuration read
from the environment are the same if and only if the variable reads alike; so is the failure to
find one. -/
theorem executable_eq_iff {env : Environment} {words : List String} {config : Config} {r : Request}
    (h : Starts env words config r) (hw : LeavesScarb words) (located : Option String) :
    (∀ users w, ∃ result, run users env located w words = .ok result ∧
        result.world = (execute (Database.toolchainOf config env located) (homesIn users env) w
          r).world) ∧
      ((Database.toolchainOf config env located).executable =
          (Database.toolchainOf (ofEnvironment env).value env located).executable ↔
        ReadsAlike env located) := by
  refine ⟨fun users w => ?_, ?_⟩
  · obtain ⟨level, hrun⟩ := h.run_eq users located w
    exact ⟨_, hrun, rfl⟩
  have hsession := h.scarbPath hw
  have henv : (ofEnvironment env).value.scarbPath = env.value? scarbVariable := rfl
  cases hraw : env.get? scarbVariable with
  | none =>
      rw [hraw] at hsession
      rw [Environment.value?, hraw] at henv
      rw [executable_of_none (by rw [hsession]; rfl), executable_of_none (by rw [henv]; rfl)]
      simp [ReadsAlike, hraw]
  | some raw =>
      rw [hraw] at hsession
      rw [Environment.value?_of_get? hraw] at henv
      rw [readsAlike_of_get? hraw]
      by_cases hempty : raw = ""
      · -- An empty value counts as none in both readings.
        have htrim : Text.trim raw = "" := by rw [hempty]; decide
        rw [if_pos htrim] at henv
        rw [executable_of_none (by rw [hsession, hempty]; rfl),
          executable_of_none (by rw [henv]; rfl)]
        exact iff_of_true rfl (.inl (htrim.trans hempty.symm))
      · rw [executable_of_some hsession hempty]
        by_cases hblank : Text.trim raw = ""
        · rw [if_pos hblank] at henv
          rw [executable_of_none (by rw [henv]; rfl), fallback_eq_blank_iff hblank hempty]
          simp [hblank, Ne.symm hempty]
        · rw [if_neg hblank] at henv
          rw [executable_of_some henv hblank]
          simp [hblank, eq_comm]

/-- A path with a blank at either end. -/
def paddedEnvironment : Environment := [(Config.scarbVariable, " /opt/scarb ")]

/-- The words of a command line that leaves Scarb to the environment. -/
def plainWords : List String := ["metadata", "/w/Scarb.toml"]

/-- A padded path is run with its blanks by a session, and without them by a database. -/
theorem executable_eq_iff_padded :
    Starts paddedEnvironment plainWords ⟨some " /opt/scarb ", "WARNING"⟩
        (.metadata (Path.ofString "/w/Scarb.toml")) ∧
      LeavesScarb plainWords ∧
      (Database.toolchainOf ⟨some " /opt/scarb ", "WARNING"⟩ paddedEnvironment none).executable ≠
        (Database.toolchainOf (Config.ofEnvironment paddedEnvironment).value paddedEnvironment
          none).executable := by
  have hstarts : Starts paddedEnvironment plainWords ⟨some " /opt/scarb ", "WARNING"⟩
      (.metadata (Path.ofString "/w/Scarb.toml")) :=
    ⟨by decide +kernel, ["metadata", "/w/Scarb.toml"], by decide +kernel, by decide +kernel⟩
  have hleaves : LeavesScarb plainWords := by
    decide
  refine ⟨hstarts, hleaves, fun h => ?_⟩
  have hread := (executable_eq_iff hstarts hleaves none).2.1 h " /opt/scarb " rfl
  revert hread
  decide

end CommandLine

end ScarbCrates
