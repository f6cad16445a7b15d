import ScarbCrates.Proofs.Metadata.Form
import ScarbCrates.Proofs.Schema.Splitting

/-!
# Where metadata is at fault

A document that is not of the form of metadata is rejected with a place in words.  The words are
taken from a message, and they are those of a place in the document at which something stands that
the form does not allow there.

* `Report.ofMessage_at` — the report of a mismatch at a place.
* `Metadata.ofDocument_located` — what is accepted, and where what is not is at fault.
-/

namespace ScarbCrates

open Json (Value)

/-! ## Places in words -/

lemma mark_not_mem_toString (n : Nat) : Report.mark ∉ (toString n).toList := by
  intro h
  rw [Nat.toString_eq_repr, Nat.repr, String.toList_ofList] at h
  have hdigit := (Json.areDigits_toDigits n).2 _ h
  cases hdigit

/-- A step holds no mark unless a name does. -/
lemma PlaceStep.mark_not_mem_render {s : PlaceStep}
    (h : ∀ n, s = .member n → Report.mark ∉ n.toList) : Report.mark ∉ s.render.toList := by
  cases s with
  | item i =>
      have hi := mark_not_mem_toString i
      simp only [render, String.toList_append, List.mem_append, not_or]
      exact ⟨⟨by decide, hi⟩, by decide⟩
  | member n =>
      simp only [render, String.toList_append, List.mem_append, not_or]
      exact ⟨by decide, h n rfl⟩
  | anyMember => decide

namespace Place

lemma toList_foldl_render (q : Place) (s : String) :
    (q.foldl (fun s step => s ++ step.render) s).toList =
      s.toList ++ q.flatMap fun step => step.render.toList := by
  induction q generalizing s with
  | nil => simp
  | cons step q ih => simp [ih]

lemma toList_render (q : Place) :
    q.render.toList = '$' :: q.flatMap fun step => step.render.toList :=
  toList_foldl_render q "$"

lemma render_ne_empty (q : Place) : q.render ≠ "" := by
  rw [ne_eq, ← String.toList_eq_nil_iff, toList_render]
  exact List.cons_ne_nil _ _

/-- A place in words holds no mark unless a name in it does. -/
lemma mark_not_mem_render {q : Place} (h : ∀ n, .member n ∈ q → Report.mark ∉ n.toList) :
    Report.mark ∉ q.render.toList := by
  rw [toList_render, List.mem_cons, List.mem_flatMap]
  rintro (hmark | ⟨s, hs, hmark⟩)
  · cases hmark
  · refine PlaceStep.mark_not_mem_render ?_ hmark
    rintro n rfl
    exact h n hs

end Place

/-! ## Reports of mismatches -/

/-- **The report of a mismatch at a place** tells what is wrong, and where unless that is the
whole. -/
lemma Report.ofMessage_at {q : Place} {m : Mismatch} (hm : m.Legible)
    (hq : ∀ n, .member n ∈ q → mark ∉ n.toList) :
    ofMessage (ReadFault.at q m).message =
      ⟨some m.message, if q = [] then none else some q.render⟩ := by
  obtain ⟨⟨hfeed, hdash⟩, htrim, hne⟩ := hm
  cases q with
  | nil =>
      have htrimmed : Text.trimmed m.message.toList = m.message.toList := by
        have hlist := congrArg String.toList htrim
        rwa [Text.trim, String.toList_ofList] at hlist
      -- A place follows a dash, and there is none.
      have hno : ∀ place x y, Text.trimmed m.message.toList = x ++ y → ¬Suffix place y := by
        rintro place x y heq ⟨b₁, b₂, b₃, -, -, -, -, -, rfl⟩
        rw [htrimmed] at heq
        exact hdash (by simp [heq])
      show ofMessage m.message = _
      rw [ofMessage_of_no_suffix hno, htrimmed, nonEmpty?_of_ne_nil, String.ofList_toList]
      · rfl
      · rwa [ne_eq, String.toList_eq_nil_iff]
  | cons s q =>
      have hjoined := ofMessage_joined (by rwa [htrim]) (by rwa [htrim])
        (Place.render_ne_empty (s :: q)) (Place.mark_not_mem_render hq)
      rw [htrim] at hjoined
      exact hjoined

lemma message_malformed (report : Report) : (MetadataFault.malformed report).message =
    "malformed scarb metadata at " ++ report.place.getD MetadataFault.wholePlace ++ ": " ++
      report.summary.getD "" := rfl

namespace Metadata

/-- No name in the form of a document holds a mark. -/
lemma mark_not_mem_names : ∀ n ∈ documentForm.names, Report.mark ∉ n.toList := by
  decide

lemma ofDocument_eq {doc : Value}
    (hversion : (versionOf doc).eq (.int formatVersion) = true) : ofDocument doc =
      (decoder false [] doc).mapError fun fault => .malformed (Report.ofMessage fault.message) := by
  rw [ofDocument, ofVersioned, hversion]
  cases decoder false [] doc <;> rfl

/-- **Where a document is at fault.**  A document of the right version is accepted if nothing in it
is at fault.  If it is rejected, then as malformed, and with the words of a place at which
something stands that the form of metadata does not allow: a value of another kind, or an object
that lacks a member. -/
theorem ofDocument_located {doc : Value} (hdoc : doc.IsJson)
    (hversion : (versionOf doc).eq (.int formatVersion) = true) :
    ((∃ m, ofDocument doc = .ok m) ↔ ∀ q, ¬documentForm.FaultAt doc q) ∧
    ∀ fault, ofDocument doc = .error fault → ∃ report q summary,
      fault = .malformed report ∧ report.place.getD MetadataFault.wholePlace = Place.render q ∧
      fault.message = "malformed scarb metadata at " ++ Place.render q ++ ": " ++ summary ∧
      documentForm.FaultAt doc q := by
  rw [ofDocument_eq hversion]
  cases hdecoder : decoder false [] doc with
  | ok m =>
      refine ⟨iff_of_true ⟨m, rfl⟩ (follows.spares hdoc hdecoder), fun fault hfault => ?_⟩
      cases hfault
  | error fault =>
      obtain ⟨q, m, rfl, hm, hq⟩ := follows.blames hdoc hdecoder
      refine ⟨iff_of_false ?_ fun h => h q hq, fun fault' hfault => ?_⟩
      · rintro ⟨_, ⟨⟩⟩
      · obtain ⟨g, w, hg, hrejects⟩ := hq
        have hreport := Report.ofMessage_at hm fun n hn =>
          mark_not_mem_names n (Form.mem_names_of_at? hg hn)
        have hplace : (if q = [] then none else some (Place.render q)).getD
            MetadataFault.wholePlace = Place.render q := by
          cases q <;> rfl
        have hmalformed : fault' = .malformed (Report.ofMessage (ReadFault.at q m).message) :=
          (Except.error.inj hfault).symm
        rw [hreport] at hmalformed
        refine ⟨_, q, m.message, hmalformed, hplace, ?_, g, w, hg, hrejects⟩
        rw [hmalformed, message_malformed, hplace]
        rfl

/-- A document with two faults: a package whose id is no text, and units that are no list. -/
def faultySample : Value :=
  .object [("version", .int 1), ("compilation_units", .null),
    ("workspace", .object [("root", .text "/w"), ("manifest_path", .text "/w/Scarb.toml")]),
    ("packages", .array [.object [("id", .int 5)]])]

/-- The fault that stands first in the document is the one that is named. -/
theorem ofDocument_located_sample :
    faultySample.IsJson ∧ (versionOf faultySample).eq (.int formatVersion) = true ∧
      ofDocument faultySample =
        .error (.malformed ⟨some "Expected `array`, got `null`", some "$.compilation_units"⟩) ∧
      ∃ q, "$.compilation_units" = Place.render q ∧ documentForm.FaultAt faultySample q := by
  have hjson : faultySample.IsJson := by
    refine Value.Portable.isJson ⟨by decide, rfl, trivial, ⟨by decide, trivial, trivial, trivial⟩,
      ⟨⟨by decide, rfl, trivial⟩, trivial⟩, trivial⟩
  have hversion : (versionOf faultySample).eq (.int formatVersion) = true := by cbv
  have hdecoder : decoder false [] faultySample =
      .error (.at [.member "compilation_units"] (.kind [.array] (some .null))) := rfl
  have hlegible : (Mismatch.kind [.array] (some .null)).Legible :=
    Mismatch.legible_kind (by decide) (by decide)
  have hreport := Report.ofMessage_at (q := [.member "compilation_units"]) hlegible fun n hn => by
    obtain rfl := PlaceStep.member.inj (List.mem_singleton.1 hn)
    decide
  have hrejected : ofDocument faultySample =
      .error (.malformed ⟨some "Expected `array`, got `null`", some "$.compilation_units"⟩) := by
    rw [ofDocument_eq hversion, hdecoder, Except.mapError, hreport]
    rfl
  obtain ⟨report, q, -, hreport, hplace, -, hq⟩ :=
    (ofDocument_located hjson hversion).2 _ hrejected
  obtain rfl := MetadataFault.malformed.inj hreport
  exact ⟨hjson, hversion, hrejected, q, hplace, hq⟩

end Metadata

end ScarbCrates
