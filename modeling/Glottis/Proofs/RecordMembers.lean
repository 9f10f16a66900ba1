import Mathlib
import Glottis.Config.Decode

/-!
# The members that a record reads

Of an object, a record reads the members with its field names.  It refuses a field that
occurs twice and any name that is no Unicode text; otherwise each field is what its member
says, or its default where there is none.  Neither the order of the members nor the members
with other names have a part in this.
-/

namespace Glottis.Fields

open Json

variable {β : Type} {names : List String} {name : String}
variable {members edited : List Member} {fields : Fields}

/-- The names of an object are Unicode texts, and those of the fields occur once at most. -/
@[mk_iff]
structure WellNamed (names : List String) (members : List Member) : Prop where
  named : none ∉ members.map Prod.fst
  once : ∀ name ∈ names, (members.map Prod.fst).count (some name) ≤ 1

/-- A field is denoted by the member with its name, or is the default where there is no such
member. -/
def FieldIs (members : List Member) (name : String) (Denotes : Value → β → Prop)
    (default field : β) : Prop :=
  (∀ value, (some name, value) ∈ members → Denotes value field) ∧
    (some name ∉ members.map Prod.fst → field = default)

/-- A change of an object that a record with some field names passes over: another order of
the members, or one more member with another name. -/
inductive Edit (names : List String) : List Member → List Member → Prop
  | reorder {before after : List Member} (hperm : before.Perm after) : Edit names before after
  | insert {unknown : String} (hunknown : unknown ∉ names) (value : Value)
      (members : List Member) : Edit names members ((some unknown, value) :: members)

/-! ## Known members -/

def field? (names : List String) : Member → Option (String × Value)
  | (some name, value) => if names.contains name then some (name, value) else none
  | (none, _) => none

theorem field?_eq_some_iff {member : Member} {value : Value} :
    field? names member = some (name, value) ↔ member = (some name, value) ∧ name ∈ names := by
  match member with
  | (none, _) => simp [field?]
  | (some other, _) =>
      simp only [field?, List.contains_iff_mem, Option.ite_none_right_eq_some, Option.some.injEq,
        Prod.mk.injEq]
      constructor
      · rintro ⟨hknown, rfl, rfl⟩
        exact ⟨⟨rfl, rfl⟩, hknown⟩
      · rintro ⟨⟨rfl, rfl⟩, hknown⟩
        exact ⟨hknown, rfl, rfl⟩

theorem known_eq_some_iff :
    known names members = some fields ↔
      none ∉ members.map Prod.fst ∧ members.filterMap (field? names) = fields := by
  induction members generalizing fields with
  | nil => simp [known]
  | cons member members ih =>
      match member with
      | (none, _) => simp [known]
      | (some other, value) =>
          by_cases hknown : other ∈ names
          · simp [known, Option.bind_eq_some_iff, ih, field?, hknown]
          · simp [known, ih, field?, hknown]

theorem mem_filterMap_field?_iff {value : Value} :
    (name, value) ∈ members.filterMap (field? names) ↔
      name ∈ names ∧ (some name, value) ∈ members := by
  simp only [List.mem_filterMap, field?_eq_some_iff]
  constructor
  · rintro ⟨_, hmember, rfl, hknown⟩
    exact ⟨hknown, hmember⟩
  · rintro ⟨hknown, hmember⟩
    exact ⟨_, hmember, rfl, hknown⟩

theorem count_filterMap_field? :
    ((members.filterMap (field? names)).map Prod.fst).count name =
      if name ∈ names then (members.map Prod.fst).count (some name) else 0 := by
  induction members with
  | nil => simp
  | cons member members ih =>
      match member with
      | (none, _) => simpa [List.filterMap_cons, field?] using ih
      | (some other, value) =>
          by_cases hknown : other ∈ names
          · by_cases hsame : other = name
            · subst hsame
              simp [field?, hknown, ih]
            · simp [field?, hknown, hsame, ih]
          · by_cases hsame : other = name
            · subst hsame
              simp [field?, hknown, ih]
            · simp [field?, hknown, hsame, ih]

theorem distinct_filterMap_field?_iff :
    distinct (members.filterMap (field? names)) ↔
      ∀ name ∈ names, (members.map Prod.fst).count (some name) ≤ 1 := by
  simp only [distinct, decide_eq_true_eq, List.nodup_iff_count_le_one, count_filterMap_field?]
  refine forall_congr' fun name => ?_
  by_cases hknown : name ∈ names <;> simp [hknown]

/-- An object is a record exactly if its names are as the record needs them. -/
theorem ofValue?_object_eq_some_iff :
    ofValue? names (.object members) = some fields ↔
      WellNamed names members ∧ members.filterMap (field? names) = fields := by
  simp only [ofValue?, Option.bind_eq_bind, Option.bind_eq_some_iff, known_eq_some_iff,
    Option.guard_eq_some', Option.pure_def, Option.some.injEq]
  constructor
  · rintro ⟨_, ⟨hnamed, rfl⟩, _, hdistinct, rfl⟩
    exact ⟨⟨hnamed, distinct_filterMap_field?_iff.mp hdistinct⟩, rfl⟩
  · rintro ⟨⟨hnamed, honce⟩, rfl⟩
    exact ⟨_, ⟨hnamed, rfl⟩, (), distinct_filterMap_field?_iff.mpr honce, rfl⟩

theorem bind_ofValue?_eq_some_iff {rest : Fields → Option β} {record : β} :
    (ofValue? names (.object members)).bind rest = some record ↔
      WellNamed names members ∧ rest (members.filterMap (field? names)) = some record := by
  simp only [Option.bind_eq_some_iff, ofValue?_object_eq_some_iff]
  constructor
  · rintro ⟨_, ⟨hwell, rfl⟩, hrest⟩
    exact ⟨hwell, hrest⟩
  · rintro ⟨hwell, hrest⟩
    exact ⟨_, ⟨hwell, rfl⟩, hrest⟩

/-! ## Fields -/

theorem lookup_eq_some_iff_mem {value : Value} (hdistinct : fields.distinct) :
    fields.lookup name = some value ↔ (name, value) ∈ fields := by
  rw [distinct, decide_eq_true_eq] at hdistinct
  induction fields with
  | nil => simp
  | cons field fields ih =>
      obtain ⟨other, first⟩ := field
      obtain ⟨hother, hdistinct⟩ := List.nodup_cons.mp hdistinct
      by_cases hsame : name = other
      · subst hsame
        have habsent : (name, value) ∉ fields := fun hmember =>
          hother (List.mem_map.mpr ⟨_, hmember, rfl⟩)
        simp [habsent, eq_comm]
      · have hother : (name == other) = false := beq_eq_false_iff_ne.mpr hsame
        simp [List.lookup_cons, hother, hsame, ih hdistinct]

/-- The fields of well named members are decoded from the members with their names. -/
theorem get?_eq_some_iff {decode : Value → Option β} {default field : β}
    (hmembers : WellNamed names members) (hknown : name ∈ names) :
    get? (members.filterMap (field? names)) name decode default = some field ↔
      FieldIs members name (decode · = some ·) default field := by
  have hdistinct := distinct_filterMap_field?_iff.mpr hmembers.once
  have hmember : ∀ value, (some name, value) ∈ members ↔
      (members.filterMap (field? names)).lookup name = some value := fun value => by
    rw [lookup_eq_some_iff_mem hdistinct, mem_filterMap_field?_iff, and_iff_right hknown]
  have habsent : some name ∉ members.map Prod.fst ↔ ∀ value, (some name, value) ∉ members := by
    simp
  simp only [FieldIs, habsent, hmember, get?]
  cases (members.filterMap (field? names)).lookup name with
  | none => simp [eq_comm]
  | some value => simp

theorem bind_get?_eq_some_iff {γ : Type} {decode : Value → Option β} {default : β}
    {rest : β → Option γ} {record : γ} (hmembers : WellNamed names members)
    (hknown : name ∈ names) :
    (get? (members.filterMap (field? names)) name decode default).bind rest = some record ↔
      ∃ field, FieldIs members name (decode · = some ·) default field ∧
        rest field = some record := by
  simp only [Option.bind_eq_some_iff, get?_eq_some_iff hmembers hknown]

theorem fieldIs_congr {Denotes Denotes' : Value → β → Prop} {default field : β}
    (hsame : ∀ value, (some name, value) ∈ members →
      (Denotes value field ↔ Denotes' value field)) :
    FieldIs members name Denotes default field ↔ FieldIs members name Denotes' default field :=
  and_congr (forall₂_congr hsame) Iff.rfl

/-! ## Edits -/

theorem Edit.mem_iff {value : Value} (hedit : Edit names members edited) (hknown : name ∈ names) :
    (some name, value) ∈ edited ↔ (some name, value) ∈ members := by
  cases hedit with
  | reorder hperm => exact hperm.mem_iff.symm
  | @insert unknown hunknown =>
      have hother : name ≠ unknown := fun hname => hunknown (hname ▸ hknown)
      simp [hother]

theorem Edit.count_eq (hedit : Edit names members edited) (hknown : name ∈ names) :
    (edited.map Prod.fst).count (some name) = (members.map Prod.fst).count (some name) := by
  cases hedit with
  | reorder hperm => exact (hperm.map Prod.fst).symm.count_eq (some name)
  | @insert unknown hunknown =>
      have hother : unknown ≠ name := fun hname => hunknown (hname ▸ hknown)
      simp [hother]

theorem Edit.wellNamed_iff (hedit : Edit names members edited) :
    WellNamed names edited ↔ WellNamed names members := by
  have hnone : none ∈ edited.map Prod.fst ↔ none ∈ members.map Prod.fst := by
    cases hedit with
    | reorder hperm => exact (hperm.map Prod.fst).symm.mem_iff
    | insert => simp
  constructor
  · rintro ⟨hnamed, honce⟩
    exact ⟨mt hnone.mpr hnamed, fun name hname => hedit.count_eq hname ▸ honce name hname⟩
  · rintro ⟨hnamed, honce⟩
    exact ⟨mt hnone.mp hnamed, fun name hname => (hedit.count_eq hname).symm ▸ honce name hname⟩

theorem Edit.lookup_eq (hedit : Edit names members edited) (hmembers : WellNamed names members)
    (hknown : name ∈ names) :
    (edited.filterMap (field? names)).lookup name =
      (members.filterMap (field? names)).lookup name := by
  have hdistinct := distinct_filterMap_field?_iff.mpr hmembers.once
  have hdistinct' := distinct_filterMap_field?_iff.mpr (hedit.wellNamed_iff.mpr hmembers).once
  ext value
  rw [lookup_eq_some_iff_mem hdistinct, lookup_eq_some_iff_mem hdistinct',
    mem_filterMap_field?_iff, mem_filterMap_field?_iff, hedit.mem_iff hknown]

/-- A record that looks its fields up by their names does not change with an edit of its
object. -/
theorem bind_ofValue?_of_edit {rest : Fields → Option β} (hedit : Edit names members edited)
    (hrest : ∀ fields fields' : Fields,
      (∀ name ∈ names, fields.lookup name = fields'.lookup name) → rest fields = rest fields') :
    (ofValue? names (.object edited)).bind rest = (ofValue? names (.object members)).bind rest := by
  ext record
  rw [bind_ofValue?_eq_some_iff, bind_ofValue?_eq_some_iff, hedit.wellNamed_iff]
  refine and_congr_right fun hmembers => ?_
  rw [hrest _ _ fun _ hknown => hedit.lookup_eq hmembers hknown]

theorem wellNamed_replace_iff {before after : List Member} {replaced : Option String}
    {value other : Value} :
    WellNamed names (before ++ (replaced, value) :: after) ↔
      WellNamed names (before ++ (replaced, other) :: after) := by
  simp only [wellNamed_iff, List.map_append, List.map_cons]

/-- A field does not change if the value of one member is replaced by another one, unless it
is the member of the field and the two denote different things. -/
theorem fieldIs_replace_iff {Denotes : Value → β → Prop} {default field : β}
    {before after : List Member} {replaced : String} {value other : Value}
    (hsame : name = replaced → (Denotes value field ↔ Denotes other field)) :
    FieldIs (before ++ (some replaced, value) :: after) name Denotes default field ↔
      FieldIs (before ++ (some replaced, other) :: after) name Denotes default field := by
  by_cases hname : name = replaced
  · simp [FieldIs, hname, or_imp, forall_and, hsame hname]
  · simp [FieldIs, hname]

end Glottis.Fields
