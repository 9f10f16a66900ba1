import Mathlib
import Glottis.Binary64
import Glottis.Config.Load
import Glottis.Proofs.JsonTexts
import Glottis.Proofs.RecordMembers

/-!
# The members that a configuration reads

A configuration text is an object of parts, and each part an object of constants.  The
constants that are written are decoded one by one, the others take their defaults, and the
whole is validated.  What a text looks like beyond that, the order of its members and the
members with other names, has no part in what is loaded or whether anything is loaded.
-/

namespace Glottis

open Json Fields

variable {α : Type} [Scalar α]
variable {members edited : List Member}

/-! ## The constants of a part -/

/-- The constants of the detector on the mean-based signal are written by some members. -/
structure SedreamsConfig.WrittenBy (config : SedreamsConfig α) (members : List Member) :
    Prop where
  wellNamed : WellNamed fieldNames members
  residualFrameMs :
    FieldIs members "residual_frame_ms" (Decode.real · = some ·) standard.residualFrameMs
      config.residualFrameMs
  residualHopMs :
    FieldIs members "residual_hop_ms" (Decode.real · = some ·) standard.residualHopMs
      config.residualHopMs
  residualWindow :
    FieldIs members "residual_window" (Decode.choice WindowKind.ofName? · = some ·)
      (standard : SedreamsConfig α).residualWindow config.residualWindow
  lpcOrder :
    FieldIs members "lpc_order" (Decode.count maxIndex · = some ·)
      (standard : SedreamsConfig α).lpcOrder config.lpcOrder
  lpcMethod :
    FieldIs members "lpc_method" (Decode.choice LinearPrediction.Method.ofName? · = some ·)
      (standard : SedreamsConfig α).lpcMethod config.lpcMethod
  meanBasedSpan :
    FieldIs members "mean_based_span" (Decode.real · = some ·) standard.meanBasedSpan
      config.meanBasedSpan
  highpassPasses :
    FieldIs members "highpass_passes" (Decode.count maxIndex · = some ·)
      (standard : SedreamsConfig α).highpassPasses config.highpassPasses
  highpassCutoffHz :
    FieldIs members "highpass_cutoff_hz" (Decode.real · = some ·) standard.highpassCutoffHz
      config.highpassCutoffHz
  gciSearchSpan :
    FieldIs members "gci_search_span" (Decode.real · = some ·) standard.gciSearchSpan
      config.gciSearchSpan
  gciThreshold :
    FieldIs members "gci_threshold" (Decode.real · = some ·) standard.gciThreshold
      config.gciThreshold
  goiSearchSpan :
    FieldIs members "goi_search_span" (Decode.real · = some ·) standard.goiSearchSpan
      config.goiSearchSpan
  goiThreshold :
    FieldIs members "goi_threshold" (Decode.real · = some ·) standard.goiThreshold
      config.goiThreshold
  defaultF0 :
    FieldIs members "default_f0" (Decode.real · = some ·) standard.defaultF0 config.defaultF0
  minF0 : FieldIs members "min_f0" (Decode.real · = some ·) standard.minF0 config.minF0
  maxF0 : FieldIs members "max_f0" (Decode.real · = some ·) standard.maxF0 config.maxF0

structure MultiProductConfig.WrittenBy (config : MultiProductConfig) (members : List Member) :
    Prop where
  wellNamed : WellNamed ["levels"] members
  levels :
    FieldIs members "levels" (Decode.count maxWritten · = some ·) standard.levels config.levels

structure InverseFilterConfig.WrittenBy (config : InverseFilterConfig α)
    (members : List Member) : Prop where
  wellNamed : WellNamed fieldNames members
  lipRadiation :
    FieldIs members "lip_radiation" (Decode.real · = some ·) standard.lipRadiation
      config.lipRadiation
  vocalTractOrder :
    FieldIs members "vocal_tract_order" (Decode.optionalCount maxIndex · = some ·)
      (standard : InverseFilterConfig α).vocalTractOrder config.vocalTractOrder
  glottisOrder :
    FieldIs members "glottis_order" (Decode.optionalCount maxIndex · = some ·)
      (standard : InverseFilterConfig α).glottisOrder config.glottisOrder

/-- An object is read as the constants that its members write. -/
theorem SedreamsConfig.ofValue?_object_eq_some_iff {config : SedreamsConfig α} :
    ofValue? (.object members) = some config ↔ config.WrittenBy members := by
  constructor
  · intro hrecord
    obtain ⟨hwell, hrecord⟩ := bind_ofValue?_eq_some_iff.mp hrecord
    -- Each field is one step of the record.
    repeat
      apply (bind_get?_eq_some_iff hwell (by decide)).mp at hrecord
      obtain ⟨_, _, hrecord⟩ := hrecord
    cases hrecord
    constructor <;> assumption
  · intro hwritten
    cases hwritten with
    | mk hwell =>
        refine bind_ofValue?_eq_some_iff.mpr ⟨hwell, ?_⟩
        repeat refine (bind_get?_eq_some_iff hwell (by decide)).mpr ⟨_, by assumption, ?_⟩
        rfl

theorem MultiProductConfig.ofValue?_object_eq_some_iff {config : MultiProductConfig} :
    ofValue? (.object members) = some config ↔ config.WrittenBy members := by
  constructor
  · intro hrecord
    obtain ⟨hwell, hrecord⟩ := bind_ofValue?_eq_some_iff.mp hrecord
    obtain ⟨_, hlevels, hrecord⟩ := (bind_get?_eq_some_iff hwell (by decide)).mp hrecord
    cases hrecord
    exact ⟨hwell, hlevels⟩
  · rintro ⟨hwell, hlevels⟩
    refine bind_ofValue?_eq_some_iff.mpr ⟨hwell, ?_⟩
    exact (bind_get?_eq_some_iff hwell (by decide)).mpr ⟨_, hlevels, rfl⟩

theorem InverseFilterConfig.ofValue?_object_eq_some_iff {config : InverseFilterConfig α} :
    ofValue? (.object members) = some config ↔ config.WrittenBy members := by
  constructor
  · intro hrecord
    obtain ⟨hwell, hrecord⟩ := bind_ofValue?_eq_some_iff.mp hrecord
    repeat
      apply (bind_get?_eq_some_iff hwell (by decide)).mp at hrecord
      obtain ⟨_, _, hrecord⟩ := hrecord
    cases hrecord
    constructor <;> assumption
  · intro hwritten
    cases hwritten with
    | mk hwell =>
        refine bind_ofValue?_eq_some_iff.mpr ⟨hwell, ?_⟩
        repeat refine (bind_get?_eq_some_iff hwell (by decide)).mpr ⟨_, by assumption, ?_⟩
        rfl

/-- Edits of a part do not change its constants. -/
theorem SedreamsConfig.ofValue?_of_edit (hedit : Edit fieldNames members edited) :
    (ofValue? (.object edited) : Option (SedreamsConfig α)) = ofValue? (.object members) := by
  refine bind_ofValue?_of_edit hedit fun fields fields' hsame => ?_
  simp (disch := decide) only [get?, hsame]

theorem MultiProductConfig.ofValue?_of_edit (hedit : Edit ["levels"] members edited) :
    ofValue? (.object edited) = ofValue? (.object members) := by
  refine bind_ofValue?_of_edit hedit fun fields fields' hsame => ?_
  simp (disch := decide) only [get?, hsame]

theorem InverseFilterConfig.ofValue?_of_edit (hedit : Edit fieldNames members edited) :
    (ofValue? (.object edited) : Option (InverseFilterConfig α)) =
      ofValue? (.object members) := by
  refine bind_ofValue?_of_edit hedit fun fields fields' hsame => ?_
  simp (disch := decide) only [get?, hsame]

/-! ## The parts of a configuration -/

namespace Config

def partFields : List (String × List String) :=
  [("sedreams", SedreamsConfig.fieldNames), ("multi_product", ["levels"]),
    ("iaif", InverseFilterConfig.fieldNames)]

/-- A configuration is decoded from some members. -/
@[mk_iff]
structure DecodedFrom (config : Config α) (members : List Member) : Prop where
  wellNamed : WellNamed partNames members
  sedreams :
    FieldIs members "sedreams" (SedreamsConfig.ofValue? · = some ·) .standard config.sedreams
  multiProduct :
    FieldIs members "multi_product" (MultiProductConfig.ofValue? · = some ·) .standard
      config.multiProduct
  inverseFilter :
    FieldIs members "iaif" (InverseFilterConfig.ofValue? · = some ·) .standard
      config.inverseFilter

theorem ofValue?_object_eq_some_iff {config : Config α} :
    ofValue? (.object members) = some config ↔ config.DecodedFrom members := by
  constructor
  · intro hrecord
    obtain ⟨hwell, hrecord⟩ := bind_ofValue?_eq_some_iff.mp hrecord
    repeat
      apply (bind_get?_eq_some_iff hwell (by decide)).mp at hrecord
      obtain ⟨_, _, hrecord⟩ := hrecord
    cases hrecord
    constructor <;> assumption
  · intro hwritten
    cases hwritten with
    | mk hwell =>
        refine bind_ofValue?_eq_some_iff.mpr ⟨hwell, ?_⟩
        repeat refine (bind_get?_eq_some_iff hwell (by decide)).mpr ⟨_, by assumption, ?_⟩
        rfl

/-- A change of one object of a configuration that it passes over: of the whole, or of one of
its parts. -/
inductive Edit : List Member → List Member → Prop
  | whole {members edited : List Member} (hedit : Fields.Edit partNames members edited) :
      Edit members edited
  | part {name : String} {names : List String} {members edited : List Member}
      (hpart : (name, names) ∈ partFields) (hedit : Fields.Edit names members edited)
      (before after : List Member) :
      Edit (before ++ (some name, .object members) :: after)
        (before ++ (some name, .object edited) :: after)

theorem ofValue?_of_edit (hedit : Edit members edited) :
    (ofValue? (.object edited) : Option (Config α)) = ofValue? (.object members) := by
  cases hedit with
  | whole hedit =>
      refine bind_ofValue?_of_edit hedit fun parts parts' hsame => ?_
      simp (disch := decide) only [get?, hsame]
  | @part name names members edited hpart hedit before after =>
      ext config
      simp only [ofValue?_object_eq_some_iff, decodedFrom_iff]
      refine and_congr wellNamed_replace_iff (and_congr ?_ (and_congr ?_ ?_))
      · refine fieldIs_replace_iff ?_
        rintro rfl
        obtain rfl : names = SedreamsConfig.fieldNames := by simpa [partFields] using hpart
        rw [SedreamsConfig.ofValue?_of_edit hedit]
      · refine fieldIs_replace_iff ?_
        rintro rfl
        obtain rfl : names = ["levels"] := by simpa [partFields] using hpart
        rw [MultiProductConfig.ofValue?_of_edit hedit]
      · refine fieldIs_replace_iff ?_
        rintro rfl
        obtain rfl : names = InverseFilterConfig.fieldNames := by simpa [partFields] using hpart
        rw [InverseFilterConfig.ofValue?_of_edit hedit]

/-! ## Loading -/

/-- The objects that a configuration reads, with the names that are known in them: the whole
object, and the objects of its parts. -/
inductive Reads (members : List Member) : List String → List Member → Prop
  | whole : Reads members partNames members
  | part {name : String} {names : List String} {inner : List Member}
      (hpart : (name, names) ∈ partFields) (hmember : (some name, .object inner) ∈ members) :
      Reads members names inner

def ByObject {β : Type} (WrittenBy : β → List Member → Prop) (value : Value) (part : β) : Prop :=
  ∃ inner, value = .object inner ∧ WrittenBy part inner

/-- A configuration is written by some members, each of its parts by an object. -/
@[mk_iff]
structure WrittenBy (config : Config α) (members : List Member) : Prop where
  wellNamed : WellNamed partNames members
  sedreams :
    FieldIs members "sedreams" (ByObject SedreamsConfig.WrittenBy) .standard config.sedreams
  multiProduct :
    FieldIs members "multi_product" (ByObject MultiProductConfig.WrittenBy) .standard
      config.multiProduct
  inverseFilter :
    FieldIs members "iaif" (ByObject InverseFilterConfig.WrittenBy) .standard
      config.inverseFilter

def PartsAreObjects (members : List Member) : Prop :=
  ∀ name ∈ partNames, ∀ value, (some name, value) ∈ members → ∃ inner, value = .object inner

theorem decodedFrom_iff_writtenBy (hobjects : PartsAreObjects members) {config : Config α} :
    config.DecodedFrom members ↔ config.WrittenBy members := by
  rw [decodedFrom_iff, writtenBy_iff]
  refine and_congr Iff.rfl (and_congr ?_ (and_congr ?_ ?_))
  all_goals
    refine fieldIs_congr fun value hvalue => ?_
    obtain ⟨inner, rfl⟩ := hobjects _ (by decide) value hvalue
    simp [ByObject, SedreamsConfig.ofValue?_object_eq_some_iff,
      MultiProductConfig.ofValue?_object_eq_some_iff,
      InverseFilterConfig.ofValue?_object_eq_some_iff]

theorem accept_eq_ok_iff {config accepted : Config α} :
    config.accept = .ok accepted ↔ config = accepted ∧ config.validate = .ok () := by
  unfold accept
  split
  case h_1 hvalid => simp [hvalid]
  case h_2 hinvalid => simp [hinvalid]

theorem load_of_spelled (fileSystem : FileSystem) {value : Value} {text : String}
    (htext : value.Spelled text) :
    (load fileSystem none (some text) : Except (LoadError α) (Config α)) =
      (ofValue? value).elim (.error .malformed) accept := by
  rw [load, ofText, parse?, read?_eq_some_iff.mpr htext, Option.bind_some]
  cases (ofValue? value : Option (Config α)) <;> rfl

theorem load_eq_ok_iff (fileSystem : FileSystem) {value : Value} {text : String}
    (htext : value.Spelled text) {config : Config α} :
    load fileSystem none (some text) = .ok config ↔
      ofValue? value = some config ∧ config.validate = .ok () := by
  rw [load_of_spelled fileSystem htext]
  cases hvalue : (ofValue? value : Option (Config α)) with
  | none => simp
  | some written =>
      simp only [Option.elim_some, accept_eq_ok_iff, Option.some.injEq]
      constructor
      · rintro ⟨rfl, hvalid⟩
        exact ⟨rfl, hvalid⟩
      · rintro ⟨rfl, hvalid⟩
        exact ⟨rfl, hvalid⟩

theorem ofValue?_of_eqvGen_edit (hedits : Relation.EqvGen Edit members edited) :
    (ofValue? (.object edited) : Option (Config α)) = ofValue? (.object members) := by
  induction hedits with
  | rel _ _ hedit => exact ofValue?_of_edit hedit
  | refl _ => rfl
  | symm _ _ _ ih => exact ih.symm
  | trans _ _ _ _ _ ih ih' => exact ih'.trans ih

theorem wellNamed_of_ofValue? {config : Config α}
    (hvalue : ofValue? (.object members) = some config) {names : List String}
    {object : List Member} (hreads : Reads members names object) : WellNamed names object := by
  have hdecoded := ofValue?_object_eq_some_iff.mp hvalue
  cases hreads with
  | whole => exact hdecoded.wellNamed
  | part hpart hmember =>
      simp only [partFields, List.mem_cons, Prod.mk.injEq, List.not_mem_nil, or_false] at hpart
      obtain ⟨rfl, rfl⟩ | ⟨rfl, rfl⟩ | ⟨rfl, rfl⟩ := hpart
      · have hpart := hdecoded.sedreams.1 _ hmember
        exact (SedreamsConfig.ofValue?_object_eq_some_iff.mp hpart).wellNamed
      · have hpart := hdecoded.multiProduct.1 _ hmember
        exact (MultiProductConfig.ofValue?_object_eq_some_iff.mp hpart).wellNamed
      · have hpart := hdecoded.inverseFilter.1 _ hmember
        exact (InverseFilterConfig.ofValue?_object_eq_some_iff.mp hpart).wellNamed

/-- Loading a text of an object depends only on the known members of the object and of its
parts: other orders of the members and members with other names, whatever their values, lead
to the same outcome.  A configuration is loaded exactly if the members write it, a default
standing for each one that is absent, and it is valid; a known name that occurs twice, like a
name that is no Unicode text, is refused. -/
theorem load_reads_known_members (α : Type) [Scalar α] (fileSystem : FileSystem) {text : String}
    {members : List Member} (htext : (Value.object members).Spelled text) :
    (∀ edited, Relation.EqvGen Edit members edited →
      ∀ text', (Value.object edited).Spelled text' →
        (load fileSystem none (some text') : Except (LoadError α) (Config α)) =
          load fileSystem none (some text)) ∧
    (PartsAreObjects members → ∀ config : Config α,
      load fileSystem none (some text) = .ok config ↔
        config.WrittenBy members ∧ config.validate = .ok ()) ∧
    (∀ names object, Reads members names object →
      (none ∈ object.map Prod.fst ∨
        ∃ name ∈ names, 1 < (object.map Prod.fst).count (some name)) →
      (load fileSystem none (some text) : Except (LoadError α) (Config α)) =
        .error .malformed) := by
  refine ⟨fun edited hedits text' htext' => ?_, fun hobjects config => ?_,
    fun names object hreads hrefused => ?_⟩
  · rw [load_of_spelled fileSystem htext, load_of_spelled fileSystem htext',
      ofValue?_of_eqvGen_edit hedits]
  · rw [load_eq_ok_iff fileSystem htext, ofValue?_object_eq_some_iff,
      decodedFrom_iff_writtenBy hobjects]
  · have hnone : (ofValue? (.object members) : Option (Config α)) = none := by
      refine Option.eq_none_iff_forall_ne_some.mpr fun config hvalue => ?_
      obtain ⟨hnamed, honce⟩ := wellNamed_of_ofValue? hvalue hreads
      obtain hnone | ⟨name, hname, htwice⟩ := hrefused
      · exact hnamed hnone
      · exact absurd (honce name hname) (Nat.not_le.mpr htwice)
    rw [load_of_spelled fileSystem htext, hnone]
    rfl

def depthOfTwo (behind : List Member) : List Member :=
  [(some "multi_product", .object ((some "levels", .number ⟨false, ['2'], none, none⟩) :: behind))]

/-- A depth of two is loaded, also with members of another name in front of its part and
behind it; written twice, it is refused. -/
theorem load_reads_known_members_of_depth :
    (load ⟨[]⟩ none (some
        "\x7b\"x\":[null],\"multi_product\":\x7b\"levels\":2,\"x\":[null]\x7d\x7d") :
      Except (LoadError Float) (Config Float)) =
        load ⟨[]⟩ none (some "\x7b\"multi_product\":\x7b\"levels\":2\x7d\x7d") ∧
    (load ⟨[]⟩ none (some "\x7b\"multi_product\":\x7b\"levels\":2\x7d\x7d") :
      Except (LoadError Float) (Config Float)) =
        .ok { Config.standard with multiProduct := ⟨2⟩ } ∧
    (load ⟨[]⟩ none (some "\x7b\"multi_product\":\x7b\"levels\":2,\"levels\":2\x7d\x7d") :
      Except (LoadError Float) (Config Float)) = .error .malformed := by
  let other : Member := (some "x", .array [.null])
  have hdepth : (Value.object (depthOfTwo [])).Spelled
      "\x7b\"multi_product\":\x7b\"levels\":2\x7d\x7d" :=
    read?_eq_some_iff.mp (by cbv)
  have hmore : (Value.object (other :: depthOfTwo [other])).Spelled
      "\x7b\"x\":[null],\"multi_product\":\x7b\"levels\":2,\"x\":[null]\x7d\x7d" :=
    read?_eq_some_iff.mp (by cbv)
  have htwice : (Value.object
      (depthOfTwo [(some "levels", .number ⟨false, ['2'], none, none⟩)])).Spelled
      "\x7b\"multi_product\":\x7b\"levels\":2,\"levels\":2\x7d\x7d" :=
    read?_eq_some_iff.mp (by cbv)
  have hpart : ("multi_product", ["levels"]) ∈ partFields := by decide
  have hedits : Relation.EqvGen Edit (depthOfTwo []) (other :: depthOfTwo [other]) := by
    have hlevels : "x" ∉ ["levels"] := by decide
    have hparts : "x" ∉ partNames := by decide
    have hinsert : Edit (depthOfTwo []) _ := .part hpart (.insert hlevels other.2 _) [] []
    have hreorder : Edit _ (depthOfTwo [other]) := .part hpart (.reorder (.swap _ _ _)) [] []
    exact .trans _ _ _ (.trans _ _ _ (.rel _ _ hinsert) (.rel _ _ hreorder))
      (.rel _ _ (.whole (.insert hparts other.2 _)))
  have hobjects : PartsAreObjects (depthOfTwo []) := by
    simp [PartsAreObjects, depthOfTwo]
  have hwritten : ({ Config.standard with multiProduct := ⟨2⟩ } : Config Float).WrittenBy
      (depthOfTwo []) := by
    refine ⟨⟨by decide, by decide⟩, ⟨by simp [depthOfTwo], fun _ => rfl⟩,
      ⟨?_, fun habsent => absurd List.mem_cons_self habsent⟩,
      ⟨by simp [depthOfTwo], fun _ => rfl⟩⟩
    rintro value hvalue
    obtain rfl := (Prod.mk.inj (List.mem_singleton.mp hvalue)).2
    exact ⟨_, rfl, MultiProductConfig.ofValue?_object_eq_some_iff.mp rfl⟩
  exact ⟨(load_reads_known_members Float ⟨[]⟩ hdepth).1 _ hedits _ hmore,
    ((load_reads_known_members Float ⟨[]⟩ hdepth).2.1 hobjects _).mpr ⟨hwritten, rfl⟩,
    (load_reads_known_members Float ⟨[]⟩ htwice).2.2 _ _ (.part hpart List.mem_cons_self)
      (.inr ⟨"levels", by decide, by decide⟩)⟩

/-- A name that is no Unicode text is not passed over: it is unknown, and yet its member
decides whether a text is loaded. -/
theorem not_forall_load_of_unknown_name :
    ¬ ∀ (fileSystem : FileSystem) (members : List Member) (name : Option String) (value : Value)
        (text text' : String), name ∉ partNames.map some →
      (Value.object members).Spelled text →
      (Value.object ((name, value) :: members)).Spelled text' →
      (load fileSystem none (some text') : Except (LoadError Float) (Config Float)) =
        load fileSystem none (some text) := by
  intro hpassed
  have hempty : (Value.object []).Spelled "\x7b\x7d" := read?_eq_some_iff.mp (by cbv)
  have hsurrogate : (Value.object [(none, .number ⟨false, ['1'], none, none⟩)]).Spelled
      "\x7b\"\\ud800\":1\x7d" := read?_eq_some_iff.mp (by cbv)
  have hsame := hpassed ⟨[]⟩ [] none _ _ _ (by decide) hempty hsurrogate
  rw [load_of_spelled _ hempty, load_of_spelled _ hsurrogate] at hsame
  cases hsame

end Config

end Glottis
