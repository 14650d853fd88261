import DocSearch.Proofs.Conversion
import DocSearch.Proofs.Sample

/-!
# Documents to the wire and back

Names for coordinates are good when no two keys are written under one name that a point needs. With
good names documents and their wire forms are two writings of the same thing. With other names the
coordinates of every point are lost, and only documents without a point come back.
-/

namespace DocSearch

open Fallible

namespace PointNames

/-- The two coordinates have different wire names, and no other key is written under either. -/
structure Good (names : PointNames) : Prop where
  differ : names.latitude ≠ names.longitude
  free : ∀ e ∈ names.extra, e.2 ≠ names.latitude ∧ e.2 ≠ names.longitude

/-- The further renamings are for other keys than the coordinates. -/
def Extra (names : PointNames) : Prop :=
  ∀ e ∈ names.extra, e.1 ≠ "latitude" ∧ e.1 ≠ "longitude"

theorem extra_ofOverrides (overrides : List (String × String)) : (ofOverrides overrides).Extra := by
  intro e he
  have hkept := (List.mem_filter.mp he).2
  rw [Bool.and_eq_true, bne_iff_ne, bne_iff_ne] at hkept
  exact hkept

theorem good_engine : engine.Good where
  differ := by decide
  free := fun _ he => absurd he List.not_mem_nil

theorem extra_engine : engine.Extra := fun _ he => absurd he List.not_mem_nil

/-! ## Reading wire names -/

variable {names : PointNames}

/-- The wire names of the coordinates are entered first and those of the other keys over them. -/
theorem reading_eq (names : PointNames) : names.reading =
    Keyed.putAll (Keyed.put names.longitude "longitude" [(names.latitude, "latitude")])
      (names.extra.map fun e => (e.2, e.1)) :=
  rfl

theorem mem_extra_keys {wire : String} :
    wire ∈ (names.extra.map fun e => (e.2, e.1)).map Prod.fst ↔ ∃ key, (key, wire) ∈ names.extra := by
  simp

/-- A wire name that no other key is written under stands for a coordinate or for nothing. -/
theorem reading_of_free {wire : String} (h : ∀ e ∈ names.extra, e.2 ≠ wire) :
    names.reading.lookup wire = if wire = names.longitude then some "longitude"
      else if wire = names.latitude then some "latitude" else none := by
  have hfree : wire ∉ (names.extra.map fun e => (e.2, e.1)).map Prod.fst := by
    rw [mem_extra_keys]
    intro hwritten
    rcases hwritten with ⟨key, hkey⟩
    exact h _ hkey rfl
  rw [reading_eq, Keyed.lookup_putAll_of_notMem hfree, Keyed.lookup_put, Keyed.lookup_cons_eq,
    List.lookup_nil]

theorem Good.reading_latitude (h : names.Good) :
    names.reading.lookup names.latitude = some "latitude" := by
  have hfree : ∀ e ∈ names.extra, e.2 ≠ names.latitude := fun e he => (h.free e he).1
  rw [reading_of_free hfree, if_neg h.differ, if_pos rfl]

theorem Good.reading_longitude (h : names.Good) :
    names.reading.lookup names.longitude = some "longitude" := by
  have hfree : ∀ e ∈ names.extra, e.2 ≠ names.longitude := fun e he => (h.free e he).2
  rw [reading_of_free hfree, if_pos rfl]

/-- A wire name that another key is written under is read as such a key. -/
theorem reading_of_extra {wire : String} (h : ∃ key, (key, wire) ∈ names.extra) :
    ∃ key, (key, wire) ∈ names.extra ∧ names.reading.lookup wire = some key := by
  rw [← mem_extra_keys] at h
  obtain ⟨key, hmem, hlookup⟩ := Keyed.lookup_putAll_of_mem h
  refine ⟨key, ?_, hlookup⟩
  simpa using hmem

theorem not_good_iff : ¬ names.Good ↔ names.latitude = names.longitude ∨
    (∃ key, (key, names.latitude) ∈ names.extra) ∨
      ∃ key, (key, names.longitude) ∈ names.extra := by
  constructor
  · intro h
    by_cases hd : names.latitude = names.longitude
    · exact .inl hd
    · by_contra hfree
      rw [not_or, not_or, not_exists, not_exists] at hfree
      refine h ⟨hd, fun e he => ⟨fun heq => ?_, fun heq => ?_⟩⟩
      · exact hfree.2.1 e.1 (heq ▸ he)
      · exact hfree.2.2 e.1 (heq ▸ he)
  · intro h hgood
    rcases h with heq | ⟨key, hkey⟩ | ⟨key, hkey⟩
    · exact hgood.differ heq
    · exact (hgood.free _ hkey).1 rfl
    · exact (hgood.free _ hkey).2 rfl

end PointNames

/-! ## Points there and back -/

/-- The order of two members does not matter. -/
theorem Value.Same.swap {first second : String} (h : first ≠ second) (x y : Value) :
    Same (.object [(second, y), (first, x)]) (.object [(first, x), (second, y)]) := by
  refine .object (List.Perm.swap _ _ _) fun key v w hv hw => ?_
  rw [Keyed.lookup_cons_eq, Keyed.lookup_cons_eq] at hv hw
  by_cases hfirst : key = first
  · rw [if_neg (hfirst ▸ h), if_pos hfirst] at hv
    rw [if_pos hfirst] at hw
    have hinj := Option.some.inj (hv.symm.trans hw)
    subst hinj
    exact .refl v
  · rw [if_neg hfirst] at hv hw
    have hinj := Option.some.inj (hv.symm.trans hw)
    subst hinj
    exact .refl v

namespace PointNames

variable {names : PointNames}

/-- A point in either order of its members has the same wire form. -/
theorem toWire_of_point (names : PointNames) {v : Value}
    (hv : PointWith "latitude" "longitude" v) :
    ∃ x y, v.Same (.object [("latitude", x), ("longitude", y)]) ∧
      names.toWire v =
        .ok (.object (Keyed.ofList [(names.latitude, x), (names.longitude, y)])) := by
  obtain ⟨x, y, rfl | rfl⟩ := hv
  · exact ⟨x, y, .refl _, rfl⟩
  · exact ⟨x, y, .swap (by decide) x y, rfl⟩

theorem ofWire_pair (names : PointNames) (a b : String) (x y : Value) :
    names.ofWire (.object [(a, x), (b, y)]) = .ok (.object (Keyed.ofList
      [((names.reading.lookup a).getD a, x), ((names.reading.lookup b).getD b, y)])) :=
  rfl

theorem Good.returns_points (h : names.Good) :
    Returns names.toWire names.ofWire names.Good (PointWith "latitude" "longitude")
      fun _ => True := by
  intro v _ hv
  obtain ⟨x, y, hsame, hwire⟩ := names.toWire_of_point hv
  refine ⟨_, .object [("latitude", x), ("longitude", y)], hwire, ?_, by simp, fun _ _ => h,
    fun _ => hsame⟩
  rw [Keyed.ofList_pair h.differ, ofWire_pair, h.reading_latitude, h.reading_longitude]
  rfl

theorem Good.returns_wirePoints (h : names.Good) :
    Returns names.ofWire names.toWire True (PointWith names.latitude names.longitude)
      fun _ => True := by
  have hpair (x y : Value) : names.toWire (.object [("latitude", x), ("longitude", y)]) =
      .ok (.object [(names.latitude, x), (names.longitude, y)]) := by
    rw [← Keyed.ofList_pair h.differ]
    rfl
  intro v _ hv
  obtain ⟨x, y, rfl | rfl⟩ := hv
  · refine ⟨.object [("latitude", x), ("longitude", y)], _, ?_, hpair x y, by simp,
      fun _ _ => trivial, fun _ => .refl _⟩
    rw [ofWire_pair, h.reading_latitude, h.reading_longitude]
    rfl
  · refine ⟨.object [("longitude", y), ("latitude", x)], _, ?_, hpair x y, by simp,
      fun _ _ => trivial, fun _ => .swap h.differ x y⟩
    rw [ofWire_pair, h.reading_latitude, h.reading_longitude]
    rfl

/-- A wire name that stands for another key is read as a key that is no coordinate. -/
theorem Extra.read_ne (hextra : names.Extra) {wire : String}
    (h : ∃ key, (key, wire) ∈ names.extra) :
    (names.reading.lookup wire).getD wire ∉ ["latitude", "longitude"] := by
  obtain ⟨key, hkey, hlookup⟩ := reading_of_extra h
  have hne := hextra _ hkey
  rw [hlookup]
  simpa using hne

/-- Where the names are not good, what is read has another key than the coordinates or only one
key. -/
theorem Extra.keys_of_not_good (hextra : names.Extra) (h : ¬ names.Good) (x y : Value) :
    ∃ members, names.ofWire
        (.object (Keyed.ofList [(names.latitude, x), (names.longitude, y)])) =
          .ok (.object members) ∧
      ¬ (members.map Prod.fst).Perm ["latitude", "longitude"] := by
  by_cases hd : names.latitude = names.longitude
  · have hone : Keyed.ofList [(names.latitude, x), (names.longitude, y)] =
        [(names.longitude, y)] := by
      simp [Keyed.ofList, Keyed.putAll, Keyed.put, hd]
    rw [hone]
    refine ⟨_, rfl, fun hperm => ?_⟩
    have hlength := hperm.length_eq
    simp [Keyed.ofList, Keyed.putAll, Keyed.put] at hlength
  · rw [Keyed.ofList_pair hd, ofWire_pair]
    refine ⟨_, rfl, fun hperm => ?_⟩
    rcases not_good_iff.mp h with heq | hwire | hwire
    · exact hd heq
    all_goals
      refine hextra.read_ne hwire (hperm.subset ?_)
      rw [Keyed.mem_keys_ofList]
      simp

theorem Extra.returns_points (hextra : names.Extra) :
    Returns names.toWire names.ofWire names.Good (PointWith "latitude" "longitude")
      fun _ => True := by
  by_cases h : names.Good
  · exact h.returns_points
  · intro v _ hv
    obtain ⟨x, y, hsame, hwire⟩ := names.toWire_of_point hv
    obtain ⟨members, hback, hkeys⟩ := hextra.keys_of_not_good h x y
    refine ⟨_, .object members, hwire, hback, by simp, ?_⟩
    have hother : ¬ v.Same (.object members) := by
      intro hv'
      obtain ⟨a, b, rfl | rfl⟩ := hv
      · exact hkeys hv'.keys.symm
      · exact hkeys (hv'.keys.symm.trans (List.Perm.swap _ _ _))
    exact ⟨fun hv' => absurd hv' hother, fun hg => absurd (hg trivial) h⟩

end PointNames

/-! ## Documents there and back -/

/-- With good names every document that fits a schema, and every wire form that fits it, comes back
as it was. With other names a document comes back as it was exactly if it holds no point. -/
theorem toWire_ofWire_inverse (overrides : List (String × String)) (schema : Schema) :
    let names := PointNames.ofOverrides overrides
    (names.Good →
      (∀ document, schema.Conforms (PointWith "latitude" "longitude") document →
        ∃ wire back, schema.toWire names document = .ok wire ∧
          schema.ofWire names (.object wire) = .ok back ∧ document.Same (.object back)) ∧
      ∀ wire, schema.Conforms (PointWith names.latitude names.longitude) wire →
        ∃ document back, schema.ofWire names wire = .ok document ∧
          schema.toWire names (.object document) = .ok back ∧ wire.Same (.object back)) ∧
    (¬ names.Good →
      ∀ document, schema.Conforms (PointWith "latitude" "longitude") document →
        ∃ wire back, schema.toWire names document = .ok wire ∧
          schema.ofWire names (.object wire) = .ok back ∧
          (document.Same (.object back) ↔ ¬ schema.HoldsPoint document)) := by
  intro names
  have hextra : names.Extra := PointNames.extra_ofOverrides overrides
  constructor
  · intro hgood
    constructor
    · intro document hfit
      obtain ⟨wire, back, hwire, hback, hsame⟩ := schema.returns hextra.returns_points hfit
      exact ⟨wire, back, hwire, hback, hsame.mpr fun _ => hgood⟩
    · intro wire hfit
      obtain ⟨document, back, hdocument, hback, hsame⟩ :=
        schema.returns hgood.returns_wirePoints hfit
      exact ⟨document, back, hdocument, hback, hsame.mpr fun _ => trivial⟩
  · intro hgood document hfit
    obtain ⟨wire, back, hwire, hback, hsame⟩ := schema.returns hextra.returns_points hfit
    refine ⟨wire, back, hwire, hback, hsame.trans ?_⟩
    exact imp_congr_right fun _ => iff_false_intro hgood


/-! ## A place there and back -/

namespace Sample

/-- A place whose point is written with the longitude first. -/
def harbour : Value := .object [
  ("location", .object [("longitude", .int 11), ("latitude", .int 57)]),
  ("tags", .list [.text "sea", .null]),
  ("id", .text "h1")]

theorem harbour_conforms : places.schema.Conforms (PointWith "latitude" "longitude") harbour := by
  have hpoint : PointWith "latitude" "longitude"
      (.object [("longitude", .int 11), ("latitude", .int 57)]) := ⟨_, _, .inr rfl⟩
  refine ⟨_, rfl, by simp [Keyed.Distinct], by decide, ?_⟩
  change MembersConform _ [_, _, _, _, _] _
  simp [MembersConform, SlotOf, Within, Field.Conforms, Field.multiple, Field.attributes,
    Field.settle, Keyed.lookup_cons_eq]
  intro v _ hv
  exact hv ▸ hpoint

theorem harbour_holdsPoint : places.schema.HoldsPoint harbour := by
  rw [Schema.HoldsPoint, harbour, membersHoldPoint_iff]
  refine ⟨("location", .leaf .geoPoint { name := "location" }), ?_, _, rfl, _, ⟨?_, rfl⟩, trivial⟩
  · simp [places, Schema.ofList, settleAll, Field.settle, Keyed.ofList, Keyed.putAll, Keyed.put]
  · simp

/-- Under short names the harbour comes back. Where the latitude alone is renamed, to the name that
the longitude keeps, it does not. -/
theorem harbour_toWire_ofWire :
    (∃ wire back,
      places.schema.toWire (.ofOverrides [("latitude", "lat"), ("longitude", "lon")]) harbour =
        .ok wire ∧
      places.schema.ofWire (.ofOverrides [("latitude", "lat"), ("longitude", "lon")])
        (.object wire) = .ok back ∧ harbour.Same (.object back)) ∧
    ∃ wire back,
      places.schema.toWire (.ofOverrides [("latitude", "longitude")]) harbour = .ok wire ∧
      places.schema.ofWire (.ofOverrides [("latitude", "longitude")]) (.object wire) =
        .ok back ∧ ¬ harbour.Same (.object back) := by
  constructor
  · exact ((toWire_ofWire_inverse [("latitude", "lat"), ("longitude", "lon")] places.schema).1
      ⟨by decide, by decide⟩).1 harbour harbour_conforms
  · obtain ⟨wire, back, hwire, hback, hsame⟩ :=
      (toWire_ofWire_inverse [("latitude", "longitude")] places.schema).2
        (fun h => h.differ rfl) harbour harbour_conforms
    exact ⟨wire, back, hwire, hback, fun h => hsame.mp h harbour_holdsPoint⟩

end Sample

end DocSearch
