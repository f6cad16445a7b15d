import ScarbCrates.Proofs.Metadata.Form

/-!
# Newer metadata

Scarb may put more into its metadata than is known here.  A document with members that the form of
metadata has no fields for, and with its members in another order, is accepted if the document
without them is, and means the same.  What the form asks nothing of is kept.

* `Decoder.Finds` — what is made of a part of a value.
* `Metadata.Keeps` — parameters and flags are those of the document.
* `Metadata.ofDocument_extends` — a document is extended.
-/

namespace ScarbCrates

open Json (Value)

/-! ## Parts of what is read -/

variable {α β γ δ : Type} {d : Decoder Value α} {e : Decoder Value β} {q : Place}

/-- **What is made of the part at a place** is what `e` makes of it, and `get` finds it in what is
made of the whole. -/
structure Decoder.Finds (d : Decoder Value α) (q : Place) (e : Decoder Value β)
    (get : α → Option β) : Prop where
  finds : ∀ {p v a w}, v.IsJson → d p v = .ok a → v.at? q = some w →
    ∃ b, e (p ++ q) w = .ok b ∧ get a = some b

namespace Fields

variable {f : Fields Value α} {g : Fields Value β} {n : String} {pick : α → γ} {r : β → γ}
  {c : Decoder Value γ}

/-- **What is made of a member** is what `c` makes of it, and `pick` finds it in what is made of
all. -/
structure Finds (f : Fields Value α) (n : String) (c : Decoder Value γ) (pick : α → γ) : Prop where
  known : f.check n ≠ none
  picks : ∀ {p known a v}, f.build p known = .ok a → last? n known = some v →
    c (p ++ [.member n]) v = .ok (pick a)

namespace Finds

lemma optional (n : String) (c : Decoder Value γ) (default : γ) :
    (Fields.optional n c default).Finds n c id where
  known := by simp [Fields.optional, checkOne]
  picks hbuild hlast := by
    simp only [Fields.optional, hlast] at hbuild
    exact hbuild

lemma required (n : String) (c : Decoder Value γ) : (Fields.required n c).Finds n c id where
  known := by simp [Fields.required, checkOne]
  picks hbuild hlast := by
    simp only [Fields.required, hlast] at hbuild
    exact hbuild

lemma left (h : f.Finds n c pick) : (both f g).Finds n c fun ab => pick ab.1 where
  known := by
    obtain ⟨d, hd⟩ := Option.ne_none_iff_exists'.1 h.known
    simp [both, hd]
  picks hbuild hlast := h.picks (build_of_both hbuild).1 hlast

lemma right (h : g.Finds n c r) : (both f g).Finds n c fun ab => r ab.2 where
  known := by
    obtain ⟨d, hd⟩ := Option.ne_none_iff_exists'.1 h.known
    cases hf : f.check n <;> simp [both, hd, hf]
  picks hbuild hlast := h.picks (build_of_both hbuild).2 hlast

end Finds

end Fields

namespace Decoder

variable {get : α → Option β}

lemma finds_self (d : Decoder Value α) : d.Finds [] d some where
  finds {p v a w} _ hok hw := by
    obtain rfl := Option.some.inj hw
    exact ⟨a, by rw [List.append_nil, hok], rfl⟩

/-- The items of a list are found by their indexes. -/
lemma Finds.item (h : d.Finds q e get) (i : Nat) :
    (listOf d).Finds (.item i :: q) e fun as => as[i]?.bind get where
  finds {p v as w} hv hok hplace := by
    obtain ⟨u, hu, hw⟩ := Option.bind_eq_some_iff.1 hplace
    cases v with
    | array vs =>
        rw [listOf_array] at hok
        obtain ⟨a, ha, has⟩ := exists_of_itemsFrom_eq_ok hok hu
        obtain ⟨b, hb, hget⟩ := h.finds (hv.item hu) ha hw
        exact ⟨b, by simpa using hb, by simp only [has, Option.bind_some, hget]⟩
    | _ => cases hu

/-- The members of an object are found by the fields for them. -/
lemma Finds.member {f : Fields Value γ} {k : γ → δ} {n : String} {r : γ → α} {pick : δ → α}
    (h : d.Finds q e get) (hf : f.Finds n d r) (hpick : ∀ c, pick (k c) = r c) (kind : String) :
    (record kind .ignored (f.map k)).Finds (.member n :: q) e fun a => get (pick a) where
  finds {p v a w} hv hok hplace := by
    obtain ⟨u, hu, hw⟩ := Option.bind_eq_some_iff.1 hplace
    cases v with
    | object ms =>
        obtain ⟨-, hbuild⟩ | ⟨_, _, _, _, -, -, -, hrecord⟩ :=
          Fields.record_cases (f.map k) kind p hv.nodup
        · rw [hbuild] at hok
          obtain ⟨c, hc, rfl⟩ := exists_of_map_eq_ok hok
          have hlast := (Fields.last?_knownOf hv.nodup hf.known).trans hu
          obtain ⟨b, hb, hget⟩ := h.finds (hv.part (s := .member n) hu) (hf.picks hc hlast) hw
          exact ⟨b, by simpa using hb, by rw [hpick, hget]⟩
        · rw [hrecord] at hok
          cases hok
    | _ => cases hu

end Decoder

/-! ## Extensions, object by object -/

namespace Form.Extends

variable {fields : List (String × (Bool × Form))} {ms ns : List (String × Value)}

/-- An object of which all members are known is extended if the values of its fields are. -/
lemma of_known (hms : (Assoc.keys ms).Nodup) (hns : (Assoc.keys ns).Nodup)
    (hkept : Assoc.keys ms ⊆ Assoc.keys ns)
    (hadded : ∀ n ∈ Assoc.keys ns, n ∉ Assoc.keys ms → Assoc.get? fields n = none)
    (hfields : ∀ f ∈ fields, ∀ v w, Assoc.get? ms f.1 = some v → Assoc.get? ns f.1 = some w →
      Extends f.2.2 v w)
    (hknown : ∀ n ∈ Assoc.keys ms, Assoc.get? fields n ≠ none) :
    Extends (.record fields) (.object ms) (.object ns) :=
  .record hkept hadded
    (fun n field v w hn hv hw => hfields (n, field) (Assoc.mem_of_get? hn) v w
      (Assoc.get?_of_mem hms hv) (Assoc.get?_of_mem hns hw))
    fun n _ _ hn hv _ => absurd hn (hknown n (List.mem_map_of_mem hv))

lemma singleton {orNull : Bool} {f : Form} {v w : Value} (h : f.Extends v w) :
    Extends (.list orNull f) (.array [v]) (.array [w]) := by
  refine .list rfl fun i x y hx hy => ?_
  cases i with
  | zero =>
      obtain rfl := Option.some.inj hx
      obtain rfl := Option.some.inj hy
      exact h
  | succ => cases hx

end Form.Extends

namespace Metadata

/-! ## What is kept -/

/-- **What nothing is asked of is kept:** the parameters of targets, and the flags of units and of
components, are the values that stand in the document. -/
structure Keeps (m : Metadata) (doc : Value) : Prop where
  params : ∀ i v, doc.at? [.member "compilation_units", .item i, .member "target",
      .member "params"] = some v →
    ∃ u, m.compilationUnits[i]? = some u ∧ Datum.ofMembers u.target.params = .ofJson v
  unitCfg : ∀ i v, doc.at? [.member "compilation_units", .item i, .member "cfg"] = some v →
    ∃ u, m.compilationUnits[i]? = some u ∧ Datum.ofList u.cfg = .ofJson v
  componentCfg : ∀ i j v, doc.at? [.member "compilation_units", .item i, .member "components",
      .item j, .member "cfg"] = some v →
    ∃ u c, m.compilationUnits[i]? = some u ∧ u.components[j]? = some c ∧
      c.cfg.elim .null Datum.ofList = .ofJson v

variable {d : Decoder Value α} {q : Place} {get : CompilationUnit → Option α}

/-- What is found in a unit is found in a document. -/
lemma finds_unit (h : (unitDecoder false : Decoder Value CompilationUnit).Finds q d get) (i : Nat) :
    (decoder false : Decoder Value Metadata).Finds (.member "compilation_units" :: .item i :: q) d
      fun m => m.compilationUnits[i]?.bind get := by
  refine (h.item i).member ?_ (fun _ => rfl) _
  exact .right (.right (.right (.optional "compilation_units" _ [])))

lemma finds_params : (unitDecoder false : Decoder Value CompilationUnit).Finds
    [.member "target", .member "params"] (Decoder.membersOf rawDecoder)
      fun u => some u.target.params := by
  have htarget : (targetDecoder : Decoder Value Target).Finds [.member "params"]
      (Decoder.membersOf rawDecoder) fun t => some t.params := by
    refine (Decoder.finds_self _).member ?_ (fun _ => rfl) _
    exact .right (.right (.right (.optional "params" _ [])))
  refine htarget.member ?_ (fun _ => rfl) _
  exact .right (.right (.left (.required "target" _)))

lemma finds_unitCfg : (unitDecoder false : Decoder Value CompilationUnit).Finds
    [.member "cfg"] (Decoder.listOf rawDecoder) fun u => some u.cfg := by
  refine (Decoder.finds_self _).member ?_ (fun _ => rfl) _
  exact .right (.right (.right (.right (.optional "cfg" _ []))))

lemma finds_componentCfg (j : Nat) : (unitDecoder false : Decoder Value CompilationUnit).Finds
    [.member "components", .item j, .member "cfg"] (Decoder.listOf? false rawDecoder)
      fun u => u.components[j]?.bind fun c => some c.cfg := by
  have hcomponent : (componentDecoder false : Decoder Value Component).Finds [.member "cfg"]
      (Decoder.listOf? false rawDecoder) fun c => some c.cfg := by
    refine (Decoder.finds_self _).member ?_ (fun _ => rfl) _
    exact .right (.right (.right (.optional "cfg" _ none)))
  refine (hcomponent.item j).member ?_ (fun _ => rfl) _
  exact .right (.right (.right (.left (.optional "components" _ []))))

lemma itemsFrom_raw (p : Place) (i : Nat) (vs : List Value) :
    Decoder.itemsFrom rawDecoder p i vs = .ok (Datum.ofJsonItems vs) := by
  induction vs generalizing i with
  | nil => rfl
  | cons v vs ih =>
      rw [Decoder.itemsFrom, ih]
      rfl

/-- A list is kept with all its items. -/
lemma listOf_raw {p : Place} {v : Value} {items : List Datum}
    (h : Decoder.listOf rawDecoder p v = .ok items) : Datum.ofList items = .ofJson v := by
  cases v with
  | array vs =>
      rw [Decoder.listOf_array, itemsFrom_raw] at h
      obtain rfl := Except.ok.inj h
      rfl
  | _ => cases h

/-- The same for a list that may be null. -/
lemma listOf?_raw {p : Place} {v : Value} {items : Option (List Datum)}
    (h : Decoder.listOf? false rawDecoder p v = .ok items) :
    items.elim .null Datum.ofList = .ofJson v := by
  cases v with
  | null =>
      obtain rfl := Except.ok.inj h
      rfl
  | array vs =>
      have hitems : (Decoder.itemsFrom rawDecoder p 0 vs >>= fun as =>
          Decoder.finish none (some as)) = .ok items := h
      rw [itemsFrom_raw] at hitems
      obtain rfl := Except.ok.inj hitems
      rfl
  | _ => cases h

/-- **What nothing is asked of is kept** in what a document is read as. -/
lemma keeps_of_decoder {doc : Value} {m : Metadata} (hdoc : doc.IsJson)
    (h : decoder false [] doc = .ok m) : m.Keeps doc where
  params i v hv := by
    obtain ⟨members, hmembers, hget⟩ := (finds_unit finds_params i).finds hdoc h hv
    obtain ⟨u, hu, heq⟩ := Option.bind_eq_some_iff.1 hget
    obtain rfl := Option.some.inj heq
    exact ⟨u, hu, (membersOf_raw (hdoc.at? hv) hmembers).2⟩
  unitCfg i v hv := by
    obtain ⟨items, hitems, hget⟩ := (finds_unit finds_unitCfg i).finds hdoc h hv
    obtain ⟨u, hu, heq⟩ := Option.bind_eq_some_iff.1 hget
    obtain rfl := Option.some.inj heq
    exact ⟨u, hu, listOf_raw hitems⟩
  componentCfg i j v hv := by
    obtain ⟨items, hitems, hget⟩ := (finds_unit (finds_componentCfg j) i).finds hdoc h hv
    obtain ⟨u, hu, hget⟩ := Option.bind_eq_some_iff.1 hget
    obtain ⟨c, hc, heq⟩ := Option.bind_eq_some_iff.1 hget
    obtain rfl := Option.some.inj heq
    exact ⟨u, c, hu, hc, listOf?_raw hitems⟩

/-! ## Documents that are extended -/

/-- The version of an extended document is that of the document. -/
lemma version_of_extends {ms ns : List (String × Value)} (hns : (Value.object ns).IsJson)
    (hextends : documentForm.Extends (.object ms) (.object ns))
    (hversion : Assoc.get? ms "version" = some (.int 1)) :
    Assoc.get? ns "version" = some (.int 1) := by
  cases hextends with
  | record hkept _ hfields _ =>
      have hmem := Assoc.mem_of_get? hversion
      obtain ⟨⟨_, w⟩, hw, heq⟩ := List.mem_map.1 (hkept (List.mem_map_of_mem hmem))
      obtain rfl : _ = "version" := heq
      cases hfields _ _ _ w rfl hmem hw with
      | plain hsame => exact Assoc.get?_of_mem hns.nodup (hsame.eq trivial ▸ hw)

/-- **A document with more in it.**  Of a document that is accepted, one with further members that
the form does not know, anywhere, and with the members of all objects in any order, is accepted as
well, and they mean equal metadata.  Both keep what nothing is asked of. -/
theorem ofDocument_extends {doc doc' : Value} {m : Metadata} (hdoc : doc.IsJson)
    (hdoc' : doc'.IsJson) (hextends : documentForm.Extends doc doc')
    (hm : ofDocument doc = .ok m) :
    m.Keeps doc ∧ ∃ m', ofDocument doc' = .ok m' ∧ Datum.eq m'.toDatum m.toDatum = true ∧
      m'.Keeps doc' := by
  obtain ⟨ms, ns, rfl, rfl⟩ := Form.exists_of_extends_record hextends
  obtain ⟨hversion, hdecoder⟩ := (ofDocument_eq_ok_iff hdoc.nodup).1 hm
  obtain ⟨m', hdecoder', heq⟩ := follows.keeps (q := []) hdoc hdoc' hextends hdecoder
  refine ⟨keeps_of_decoder hdoc hdecoder, m', ?_, heq, keeps_of_decoder hdoc' hdecoder'⟩
  exact (ofDocument_eq_ok_iff hdoc'.nodup).2 ⟨version_of_extends hdoc' hextends hversion, hdecoder'⟩

/-- A target with parameters. -/
def olderTarget : Value :=
  .object [("kind", .text "lib"), ("name", .text "l"), ("source_path", .text "/w/lib.cairo"),
    ("params", .object [("sierra", .bool true), ("casm", .null)])]

/-- The same with one more member, and the parameters in another order. -/
def newerTarget : Value :=
  .object [("test_type", .text "unit"), ("kind", .text "lib"), ("name", .text "l"),
    ("params", .object [("casm", .null), ("sierra", .bool true)]),
    ("source_path", .text "/w/lib.cairo")]

/-- A document with one unit. -/
def olderSample : Value :=
  .object [("version", .int 1),
    ("workspace", .object [("manifest_path", .text "/w/Scarb.toml"), ("root", .text "/w")]),
    ("compilation_units", .array [.object [("id", .text "u"), ("package", .text "p"),
      ("target", olderTarget), ("cfg", .array [.object [("k", .int 1)]])]])]

/-- The same from a newer Scarb. -/
def newerSample : Value :=
  .object [("app_exe", .null), ("version", .int 1),
    ("compilation_units", .array [.object [("id", .text "u"), ("package", .text "p"),
      ("components_data", .array []), ("cfg", .array [.object [("k", .int 1)]]),
      ("target", newerTarget)]]),
    ("workspace", .object [("root", .text "/w"), ("target_dir", .text "/t"),
      ("manifest_path", .text "/w/Scarb.toml")])]

/-- What the first document means. -/
def olderMetadata : Metadata where
  version := 1
  workspace := ⟨.ofString "/w/Scarb.toml", .ofString "/w", []⟩
  packages := []
  compilationUnits := [⟨"u", "p", ⟨"lib", "l", .ofString "/w/lib.cairo",
    [("sierra", .bool true), ("casm", .null)]⟩, [], [.ofJson (.object [("k", .int 1)])]⟩]

lemma newerTarget_extends : targetForm.Extends olderTarget newerTarget := by
  have hparams : Value.Same (.object [("casm", .null), ("sierra", .bool true)])
      (.object [("sierra", .bool true), ("casm", .null)]) :=
    Value.same_of_perm (by decide) (.swap _ _ [])
  refine .of_known (by decide) (by decide) (by decide) (by decide) ?_ (by decide)
  simp only [Form.required, Form.optional, List.forall_mem_cons]
  refine ⟨?_, ?_, ?_, ?_, List.forall_mem_nil _⟩
  all_goals rintro _ _ ⟨⟩ ⟨⟩
  · exact .plain rfl
  · exact .plain rfl
  · exact .plain rfl
  · exact .plain hparams

lemma newerSample_extends : documentForm.Extends olderSample newerSample := by
  refine .of_known (by decide) (by decide) (by decide) (by decide) ?_ (by decide)
  simp only [Form.required, Form.optional, List.forall_mem_cons]
  refine ⟨?_, ?_, ?_, ?_, List.forall_mem_nil _⟩
  · rintro _ _ ⟨⟩ ⟨⟩
    exact .plain rfl
  · rintro _ _ ⟨⟩ ⟨⟩
    refine .of_known (by decide) (by decide) (by decide) (by decide) ?_ (by decide)
    simp only [Form.required, Form.optional, List.forall_mem_cons]
    refine ⟨?_, ?_, ?_, List.forall_mem_nil _⟩
    · rintro _ _ ⟨⟩ ⟨⟩
      exact .plain rfl
    · rintro _ _ ⟨⟩ ⟨⟩
      exact .plain rfl
    · rintro _ _ ⟨⟩
  · rintro _ _ ⟨⟩
  · rintro _ _ ⟨⟩ ⟨⟩
    refine .singleton (.of_known (by decide) (by decide) (by decide) (by decide) ?_ (by decide))
    simp only [Form.required, Form.optional, List.forall_mem_cons]
    refine ⟨?_, ?_, ?_, ?_, ?_, List.forall_mem_nil _⟩
    · rintro _ _ ⟨⟩ ⟨⟩
      exact .plain rfl
    · rintro _ _ ⟨⟩ ⟨⟩
      exact .plain rfl
    · rintro _ _ ⟨⟩ ⟨⟩
      exact newerTarget_extends
    · rintro _ _ ⟨⟩
    · rintro _ _ ⟨⟩ ⟨⟩
      exact .singleton (.plain rfl)

/-- A newer document with members that are not known in four of its objects. -/
theorem ofDocument_extends_sample :
    olderSample.IsJson ∧ newerSample.IsJson ∧ documentForm.Extends olderSample newerSample ∧
      ofDocument olderSample = .ok olderMetadata ∧ olderMetadata.Keeps olderSample ∧
      ∃ m, ofDocument newerSample = .ok m ∧ Datum.eq m.toDatum olderMetadata.toDatum = true ∧
        m.Keeps newerSample := by
  have hdoc : olderSample.IsJson := by
    refine Value.Portable.isJson ?_
    simp [olderSample, olderTarget, Value.Portable, Value.PortableItems, Value.PortableMembers,
      Assoc.keys]
    decide
  have hdoc' : newerSample.IsJson := by
    refine Value.Portable.isJson ?_
    simp [newerSample, newerTarget, Value.Portable, Value.PortableItems, Value.PortableMembers,
      Assoc.keys]
    decide
  have hm : ofDocument olderSample = .ok olderMetadata :=
    (ofDocument_eq_ok_iff hdoc.nodup).2 ⟨rfl, rfl⟩
  exact ⟨hdoc, hdoc', newerSample_extends, hm,
    ofDocument_extends hdoc hdoc' newerSample_extends hm⟩

end Metadata

end ScarbCrates
