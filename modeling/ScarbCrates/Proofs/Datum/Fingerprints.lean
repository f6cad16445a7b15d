import ScarbCrates.Config
import ScarbCrates.Proofs.Datum.Plain
import ScarbCrates.Proofs.Json.Unambiguous

/-!
# What a fingerprint tells

The canonical bytes of JSON data are those of its value with all members sorted.  The order of
members leaves no trace in them, and everything else does: strings with all their letters, the
difference between a number and its text, between nothing and no items.  So a digest identifies the
value, as far as digests identify bytes.

* `Json.Value.compact_sorted_eq_iff` — values with the same canonical text.
* `Datum.hash_eq_iff_alike` — what equal bytes and equal digests mean, for JSON data and for
  configurations.
-/

namespace ScarbCrates

/-! ## Sorted values -/

namespace Json

namespace Value

lemma floatFreeMembers_iff {ms : List (String × Value)} :
    floatFreeMembers ms = true ↔ ∀ m ∈ ms, m.2.floatFree = true := by
  induction ms with
  | nil => simp [floatFreeMembers]
  | cons m ms ih =>
      obtain ⟨name, v⟩ := m
      simp only [floatFreeMembers, ih, Bool.and_eq_true, List.forall_mem_cons]

mutual

/-- Sorting brings in no floating-point numbers. -/
theorem floatFree_sorted : ∀ {v : Value}, v.floatFree = true → v.sorted.floatFree = true
  | .null, h | .bool _, h | .int _, h | .float _, h | .text _, h => h
  | .array _, h => floatFreeItems_sorted h
  | .object ms, h => by
      have hsorted := floatFreeMembers_sorted ms h
      rw [floatFreeMembers_iff] at hsorted
      refine floatFreeMembers_iff.2 fun m hm => hsorted m ?_
      exact (sortMembers_perm _).mem_iff.1 hm

/-- The same for items. -/
theorem floatFreeItems_sorted : ∀ {vs : List Value}, floatFreeItems vs = true →
    floatFreeItems (sortedItems vs) = true
  | [], _ => rfl
  | v :: vs, h => by
      simp only [floatFreeItems, sortedItems, Bool.and_eq_true] at h ⊢
      exact ⟨floatFree_sorted h.1, floatFreeItems_sorted h.2⟩

/-- The same for the values of members. -/
theorem floatFreeMembers_sorted : ∀ ms : List (String × Value), floatFreeMembers ms = true →
    floatFreeMembers (sortedMembers ms) = true
  | [], _ => rfl
  | (_, v) :: ms, h => by
      simp only [floatFreeMembers, sortedMembers, Bool.and_eq_true] at h ⊢
      exact ⟨floatFree_sorted h.1, floatFreeMembers_sorted ms h.2⟩

end

/-- Values written with the same canonical text are the same. -/
lemma compact_sorted_eq_iff {v w : Value} (hv : v.floatFree = true) (hw : w.floatFree = true) :
    v.sorted.compact = w.sorted.compact ↔ v.Same w := by
  constructor
  · exact compact_injective (floatFree_sorted hv) (floatFree_sorted hw)
  · intro h
    rw [h]

end Value

end Json

open Json (Value)

/-- Different bytes with the same digest. -/
def Sha256.Collide (a b : List UInt8) : Prop := a ≠ b ∧ hash a = hash b

namespace Datum

/-! ## What bytes and digests tell -/

variable {textKeys : Bool}

/-- **Told apart:** both values have canonical bytes, which are equal if and only if `same`; and so
are the digests, unless the bytes collide. -/
def Tells (textKeys : Bool) (d e : Datum) (same : Prop) : Prop :=
  ∃ a b, d.canonicalBytes textKeys = .ok a ∧ e.canonicalBytes textKeys = .ok b ∧
    (a = b ↔ same) ∧ d.hash textKeys = .ok (Sha256.hash a) ∧
    e.hash textKeys = .ok (Sha256.hash b) ∧
    (d.hash textKeys = e.hash textKeys ↔ same ∨ Sha256.Collide a b)

lemma hash_of_canonicalBytes {d : Datum} {a : List UInt8}
    (h : d.canonicalBytes textKeys = .ok a) : d.hash textKeys = .ok (Sha256.hash a) := by
  rw [hash, h]
  rfl

lemma tells_of_canonicalBytes {d e : Datum} {same : Prop} {a b : List UInt8}
    (hd : d.canonicalBytes textKeys = .ok a) (he : e.canonicalBytes textKeys = .ok b)
    (heq : a = b ↔ same) : Tells textKeys d e same := by
  have hhash := hash_of_canonicalBytes hd
  have hhash' := hash_of_canonicalBytes he
  refine ⟨a, b, hd, he, heq, hhash, hhash', ?_⟩
  rw [hhash, hhash', Except.ok.injEq, ← heq, Sha256.Collide]
  constructor
  · intro h
    by_cases hab : a = b
    · exact .inl hab
    · exact .inr ⟨hab, h⟩
  · rintro (h | h)
    · rw [h]
    · exact h.2

lemma canonicalBytes_ofJson {v : Value} (hv : v.distinct = true) :
    (ofJson v).canonicalBytes textKeys = .ok (Text.encode (Text.ofChars v.sorted.compact)) := by
  rw [canonicalBytes, (becomes_ofJson hv).canonical_eq]
  rfl

lemma tells_ofJson (textKeys : Bool) {v w : Value} (hv : v.floatFree = true)
    (hw : w.floatFree = true) (hdv : v.distinct = true) (hdw : w.distinct = true) :
    Tells textKeys (ofJson v) (ofJson w) (v.Alike w) := by
  refine tells_of_canonicalBytes (canonicalBytes_ofJson hdv) (canonicalBytes_ofJson hdw) ?_
  rw [Json.Value.alike_iff_same hdv hdw, ← Json.Value.compact_sorted_eq_iff hv hw]
  exact ⟨Text.encode_ofChars_injective, fun h => by rw [h]⟩

end Datum

/-! ## Configurations -/

namespace Config

/-- The JSON value that identifies a configuration. -/
def value (c : Config) : Value :=
  .object [("version", .int 1), ("scarb_path", (c.scarbPath.map Value.text).getD .null),
    ("log_level", .text c.logLevel)]

lemma payload_eq_ofJson (c : Config) : c.payload = Datum.ofJson c.value := by
  obtain ⟨scarbPath, logLevel⟩ := c
  cases scarbPath <;> rfl

lemma legible_value (c : Config) : c.value.floatFree = true ∧ c.value.distinct = true := by
  obtain ⟨scarbPath, logLevel⟩ := c
  cases scarbPath <;> exact ⟨rfl, rfl⟩

/-- Configurations with the same value are the same. -/
lemma alike_value_iff (c c' : Config) : c.value.Alike c'.value ↔ c = c' := by
  obtain ⟨scarbPath, logLevel⟩ := c
  obtain ⟨scarbPath', logLevel'⟩ := c'
  cases scarbPath <;> cases scarbPath' <;>
    simp [value, Json.Value.Alike, Json.Value.AlikeMembers]

end Config

namespace Datum

/-- **A fingerprint identifies.**  Bytes and digests of JSON data without floating-point numbers
are equal if and only if the values are alike, and those of configurations if and only if the
configurations are the same, collisions apart. -/
theorem hash_eq_iff_alike (textKeys : Bool) {v w : Value} (hv : v.floatFree = true)
    (hw : w.floatFree = true) (hdv : v.distinct = true) (hdw : w.distinct = true) :
    Tells textKeys (ofJson v) (ofJson w) (v.Alike w) ∧
      ∀ c c' : Config, Tells true c.payload c'.payload (c = c') ∧
        c.fingerprint = c.payload.hash true ∧ c'.fingerprint = c'.payload.hash true := by
  refine ⟨tells_ofJson textKeys hv hw hdv hdw, fun c c' => ⟨?_, rfl, rfl⟩⟩
  have h := tells_ofJson true c.legible_value.1 c'.legible_value.1 c.legible_value.2
    c'.legible_value.2
  rwa [Config.alike_value_iff, ← Config.payload_eq_ofJson, ← Config.payload_eq_ofJson] at h

/-- A number, its text and nothing, beside an empty object. -/
def sampleMembers : List (String × Value) :=
  [("b", .array [.int 1, .text "1", .null]), ("a", .object [])]

/-- The members of the sample in either order. -/
theorem hash_eq_iff_alike_reversed :
    (Value.object sampleMembers).floatFree = true ∧
      (Value.object sampleMembers.reverse).floatFree = true ∧
      (Value.object sampleMembers).distinct = true ∧
      (Value.object sampleMembers.reverse).distinct = true ∧
      Tells true (ofJson (.object sampleMembers)) (ofJson (.object sampleMembers.reverse)) True ∧
      ∀ c c' : Config, Tells true c.payload c'.payload (c = c') := by
  have hlike : (Value.object sampleMembers).Alike (.object sampleMembers.reverse) :=
    Json.Value.Same.alike (Json.Value.same_of_perm (by decide) (List.reverse_perm _).symm)
  obtain ⟨hsample, hconfig⟩ := hash_eq_iff_alike true (v := .object sampleMembers)
    (w := .object sampleMembers.reverse) rfl rfl rfl rfl
  rw [eq_true hlike] at hsample
  exact ⟨rfl, rfl, rfl, rfl, hsample, fun c c' => (hconfig c c').1⟩

end Datum

end ScarbCrates
