import SourceAudit.Proofs.UnreadSettings

/-!
# Overridden settings as a union of documents

Settings are nested documents, and so are the overrides. Both are read along paths of keys: what the
overrides state on a path wins, and what they do not touch stays.
-/

open List

namespace SourceAudit

namespace Value

/-! ## Paths of keys -/

def along? : List String → Value → Option Value
  | [], v => some v
  | k :: p, .record fs => (field? k fs).bind (along? p)
  | _ :: _, _ => none

mutual

/-- The keys of all documents inside of a document are texts, and none is stated twice. -/
def KeysDistinct : Value → Prop
  | .record fs => FieldsDistinct fs
  | .table _ => False
  | _ => True

def FieldsDistinct : List (String × Value) → Prop
  | [] => True
  | (k, v) :: tl => field? k tl = none ∧ KeysDistinct v ∧ FieldsDistinct tl

end

variable {k : String} {v : Value} {fs : List (String × Value)}

theorem setField_self (hf : field? k fs = some v) : setField k v fs = fs := by
  induction fs with
  | nil => cases hf
  | cons e tl ih => grind [setField, field?_cons]

theorem FieldsDistinct.field?_of_mem (hdis : FieldsDistinct fs)
    (hm : (k, v) ∈ fs) : field? k fs = some v := by
  induction fs with
  | nil => cases hm
  | cons e tl ih =>
    obtain ⟨single, _, behind⟩ := hdis
    rw [field?_cons]
    rcases mem_cons.mp hm with rfl | later
    · exact if_pos rfl
    · have hf := ih behind later
      rw [if_neg, hf]
      rintro rfl
      rw [single] at hf
      cases hf

theorem FieldsDistinct.inside (hdis : FieldsDistinct fs)
    (hf : field? k fs = some v) : KeysDistinct v := by
  induction fs with
  | nil => cases hf
  | cons e tl ih =>
    obtain ⟨_, hi, behind⟩ := hdis
    rw [field?_cons] at hf
    split_ifs at hf
    · cases hf
      exact hi
    · exact ih behind hf

end Value

namespace Agent

open SourceAudit.Value

/-! ## Overriding key by key -/

theorem override_none (v : Value) : override none v = v := by
  cases v <;> rfl

theorem override_of_not_record (cur : Option Value) {v : Value}
    (hp : v.isRecord = false) : override cur v = v := by
  cases v with
  | record fs => cases hp
  | _ => rfl

theorem field?_overrideFields (k : String) {fs ovr : List (String × Value)}
    (hdis : FieldsDistinct ovr) :
    field? k (overrideFields fs ovr) =
      match field? k ovr with
      | some v => some (override (field? k fs) v)
      | none => field? k fs := by
  induction ovr generalizing fs with
  | nil => rw [overrideFields]; rfl
  | cons e tl ih =>
    obtain ⟨other, v⟩ := e
    obtain ⟨single, _, behind⟩ := hdis
    rw [overrideFields, ih behind, field?_setField, field?_cons]
    dsimp only
    by_cases hs : other = k
    · subst hs
      rw [single, if_pos rfl, if_pos rfl]
    · rw [if_neg hs, if_neg hs]

/-- Nothing changes where every override is in force already. -/
theorem overrideFields_eq_self {fs ovr : List (String × Value)}
    (settled : ∀ e ∈ ovr, ∃ v, field? e.1 fs = some v ∧
      override (some v) e.2 = v) : overrideFields fs ovr = fs := by
  induction ovr with
  | nil => rw [overrideFields]
  | cons e tl ih =>
    obtain ⟨⟨v, hf, hs⟩, behind⟩ := forall_mem_cons.mp settled
    rw [overrideFields, hf, hs, setField_self hf, ih behind]

theorem override_record (fs ovr : List (String × Value)) :
    override (some (.record fs)) (.record ovr) = .record (overrideFields fs ovr) := by
  rw [override]

theorem exists_override_record {ovr : List (String × Value)}
    (hdis : FieldsDistinct ovr) (cur : Option Value) :
    ∃ fs, override cur (.record ovr) = .record fs ∧
      ∀ k v, field? k ovr = some v → ∃ before, field? k fs = some (override before v) := by
  have replaced (hs : override cur (.record ovr) = .record ovr) :
      ∃ fs, override cur (.record ovr) = .record fs ∧ ∀ k v, field? k ovr = some v →
          ∃ before, field? k fs = some (override before v) :=
    ⟨ovr, hs, fun _ v hf => ⟨none, by rw [override_none, hf]⟩⟩
  cases cur with
  | none => exact replaced (override_none _)
  | some cur =>
    cases cur with
    | record fs =>
      refine ⟨_, override_record fs ovr, fun k v hf => ⟨field? k fs, ?_⟩⟩
      rw [field?_overrideFields k hdis, hf]
    | _ => exact replaced (by simp [override])

mutual

theorem override_again (cur : Option Value) : (v : Value) → KeysDistinct v →
    override (some (override cur v)) v = override cur v
  | .record ovr, hdis => by
    obtain ⟨fs, overridden, stated⟩ := exists_override_record hdis cur
    rw [overridden, override_record]
    refine congrArg Value.record (overrideFields_eq_self fun e hm => ?_)
    obtain ⟨before, hf⟩ := stated e.1 e.2 (hdis.field?_of_mem hm)
    exact ⟨_, hf, overrideEach_again ovr hdis e hm before⟩
  | .null, _ | .bool _, _ | .int _, _ | .float _, _ | .text _, _ | .bytes _, _ | .list _, _
  | .tuple _, _ | .table _, _ | .code _, _ | .spelled _ _, _ => rfl

theorem overrideEach_again : (ovr : List (String × Value)) → FieldsDistinct ovr →
    ∀ e ∈ ovr, ∀ cur, override (some (override cur e.2)) e.2 = override cur e.2
  | [], _ => forall_mem_nil _
  | (_, v) :: tl, ⟨_, hi, behind⟩ =>
    forall_mem_cons.mpr ⟨fun cur => override_again cur v hi, overrideEach_again tl behind⟩

end

/-! ## Overriding along paths -/

theorem along?_override {v stated : Value} (hdis : KeysDistinct v) {p : List String}
    (hf : along? p v = some stated) (hp : stated.isRecord = false)
    (cur : Option Value) : along? p (override cur v) = some stated := by
  induction p generalizing v cur with
  | nil =>
    cases hf
    rw [override_of_not_record cur hp, along?]
  | cons k p ih =>
    cases v with
    | record ovr =>
      obtain ⟨inner, hh, deeper⟩ := Option.bind_eq_some_iff.mp hf
      obtain ⟨fs, overridden, states⟩ := exists_override_record hdis cur
      obtain ⟨before, ht⟩ := states k inner hh
      rw [overridden, along?, ht]
      exact ih (hdis.inside hh) deeper before
    | _ => cases hf

theorem along?_override_of_untouched {cur v kept : Value} (hdis : KeysDistinct v)
    {p : List String} (hf : along? p cur = some kept) (unstated : along? p v = none)
    (passable : ∀ pre back other, p = pre ++ back → back ≠ [] →
      along? pre v = some other → other.isRecord = true) :
    along? p (override (some cur) v) = some kept := by
  induction p generalizing v cur with
  | nil => cases unstated
  | cons k p ih =>
    have recorded := passable [] (k :: p) v rfl (cons_ne_nil k p) rfl
    cases cur with
    | record fs =>
      cases v with
      | record ovr =>
        obtain ⟨inner, hh, deeper⟩ := Option.bind_eq_some_iff.mp hf
        rw [override_record, along?, field?_overrideFields k hdis]
        cases stated : field? k ovr with
        | none =>
          rw [hh]
          exact deeper
        | some other =>
          rw [hh]
          refine ih (hdis.inside stated) deeper ?_ fun pre back last hs more ahead => ?_
          · simpa [along?, stated] using unstated
          · refine passable (k :: pre) back last (by rw [hs, cons_append]) more ?_
            rw [along?, stated]
            exact ahead
      | table es => exact hdis.elim
      | _ => cases recorded
    | _ => cases hf

/--
Overriding is a union of documents in which the overrides win.  It leaves settings without overrides
alone, and overriding twice is overriding once.  A plain value that the overrides state on a path is in
force there, and a plain value of the settings is kept if the overrides neither state its path nor a
plain value on the way to it.
-/
theorem overrideFields_is_union (fields overrides : List (String × Value))
    (distinct : KeysDistinct (.record overrides)) :
    overrideFields fields [] = fields ∧
      overrideFields (overrideFields fields overrides) overrides = overrideFields fields overrides ∧
        (∀ path value, along? path (.record overrides) = some value → value.isRecord = false →
          along? path (.record (overrideFields fields overrides)) = some value) ∧
          ∀ path value, along? path (.record fields) = some value → value.isRecord = false →
            along? path (.record overrides) = none →
            (∀ front back other, path = front ++ back → back ≠ [] →
              along? front (.record overrides) = some other → other.isRecord = true) →
            along? path (.record (overrideFields fields overrides)) = some value := by
  have again := override_again (some (.record fields)) (.record overrides) distinct
  rw [override_record, override_record] at again
  refine ⟨by rw [overrideFields], Value.record.inj again, fun path value found plain => ?_,
    fun path value found _ unstated passable => ?_⟩
  · rw [← override_record]
    exact along?_override distinct found plain _
  · rw [← override_record]
    exact along?_override_of_untouched distinct found unstated passable

/-- One override reaches into a part of the standard settings and one replaces a part. -/
theorem standardSettings_overridden :
    along? ["cache", "enabled"] (.record (overrideFields standardSettings
        [("cache", .record [("enabled", .bool false)]), ("redaction", .null)])) =
        some (.bool false) ∧
      along? ["cache", "ttl_seconds"] (.record (overrideFields standardSettings
        [("cache", .record [("enabled", .bool false)]), ("redaction", .null)])) =
        some (.int 86400) := by
  have distinct : KeysDistinct (.record
      [("cache", .record [("enabled", .bool false)]), ("redaction", .null)]) :=
    ⟨rfl, ⟨rfl, trivial, trivial⟩, rfl, trivial, trivial⟩
  obtain ⟨_, _, stated, kept⟩ := overrideFields_is_union standardSettings _ distinct
  refine ⟨stated _ _ rfl rfl, kept ["cache", "ttl_seconds"] _ rfl rfl rfl ?_⟩
  rintro (_ | ⟨first, _ | ⟨second, front⟩⟩) back other same more found
  · cases found
    rfl
  · cases (List.cons.inj same).1
    cases found
    rfl
  · simp_all

end Agent

end SourceAudit
