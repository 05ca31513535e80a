import QueryPanel.Filter.Json
import QueryPanel.Proofs.Json.Records

/-!
# Filter bags are read back from documents

The fields of a filter and the three members of a bag beside them are written on one level, each
under a name of its own and none of them as `null`, so that what is left out is what had no value. A
duration that is not finite is the exception: it is written as `null`, and would be read as none.

> `FilterBag.ofJson?_toJson`: a filter bag with finite durations is read back from the object it is
> written as.
-/

namespace QueryPanel

namespace AttributeFilter

theorem ofJson?_toJson (a : AttributeFilter) : ofJson? a.toJson = some a := by
  rfl

theorem faithful_toJson (a : AttributeFilter) : Json.Faithful a.toJson :=
  .object (by simp only [List.forall_mem_cons]; exact ⟨.string _, .string _, nofun⟩)

end AttributeFilter

namespace FilterFields

/-- Neither duration is an infinity or no number at all. -/
structure Finite (fields : FilterFields) : Prop where
  minDuration : ∀ d ∈ fields.minDuration, d.isFinite = true
  maxDuration : ∀ d ∈ fields.maxDuration, d.isFinite = true

variable {fields : FilterFields}

theorem optional_duration {o : Option Double} (h : ∀ d ∈ o, d.isFinite = true) :
    Json.optional Json.asDouble? (o.map (·.toJson)) = some o := by
  cases o with
  | none => rfl
  | some d =>
    rw [Option.map_some, Double.toJson, if_pos (h d rfl)]
    rfl

theorem optional_attribute (o : Option AttributeFilter) :
    Json.optional AttributeFilter.ofJson? (o.map (·.toJson)) = some o :=
  Json.optional_map (fun a _ => a.ofJson?_toJson) nofun

/-- Fields are read back wherever their members are found. -/
theorem ofMembers?_eq (hfinite : fields.Finite) {get : String → Option Json}
    (h : ∀ m ∈ fields.members, get m.1 = m.2) : ofMembers? get = some fields := by
  simp only [members, List.forall_mem_cons] at h
  simp only [ofMembers?, h, Json.optional_string, Json.optional_bool, optional_attribute,
    optional_duration hfinite.minDuration, optional_duration hfinite.maxDuration,
    Option.bind_eq_bind, Option.bind_some]

theorem faithful_members (hfinite : fields.Finite) :
    ∀ m ∈ fields.members, ∀ v ∈ m.2, Json.Faithful v := by
  have hstring := Json.faithful_map_string
  have hbool (o : Option Bool) : ∀ v ∈ o.map Json.bool, Json.Faithful v :=
    Json.faithful_map fun b _ => .bool b
  have hduration {o : Option Double} (h : ∀ d ∈ o, d.isFinite = true) :
      ∀ v ∈ o.map (·.toJson), Json.Faithful v := by
    refine Json.faithful_map fun d hd => ?_
    rw [Double.toJson, if_pos (h d hd)]
    exact .real (h d hd)
  have hattribute (o : Option AttributeFilter) : ∀ v ∈ o.map (·.toJson), Json.Faithful v :=
    Json.faithful_map fun a _ => a.faithful_toJson
  simp only [members, List.forall_mem_cons]
  exact ⟨hstring _, hstring _, hstring _, hstring _, hstring _, hstring _, hstring _, hbool _,
    hbool _, hduration hfinite.minDuration, hduration hfinite.maxDuration, hattribute _,
    hattribute _, nofun⟩

end FilterFields

namespace FilterBag

/-- The members that a filter bag is written as. -/
def members (bag : FilterBag) : List (String × Option Json) :=
  bag.fields.members ++
    [("metricName", bag.metricName.map .string), ("metricType", bag.metricType.map .string),
      ("search", bag.search.map .string)]

variable {bag : FilterBag}

theorem nodup_members (bag : FilterBag) : (bag.members.map Prod.fst).Nodup := by
  have hnames : bag.members.map Prod.fst
      = FilterFields.memberNames ++ ["metricName", "metricType", "search"] := rfl
  rw [hnames]
  decide

/-- A bag with finite durations is read back. -/
theorem ofJson?_toJson (hfinite : bag.fields.Finite) : ofJson? bag.toJson = some bag := by
  have hholds := Json.holds_present bag.nodup_members
  have hfields : FilterFields.ofMembers? (fun n => (Json.present bag.members).lookup n)
      = some bag.fields :=
    FilterFields.ofMembers?_eq hfinite fun m hm => hholds.lookup_eq m (List.mem_append_left _ hm)
  have hothers : ∀ m ∈ [("metricName", bag.metricName.map Json.string),
      ("metricType", bag.metricType.map .string), ("search", bag.search.map .string)],
      (Json.present bag.members).lookup m.1 = m.2 :=
    fun m hm => hholds.lookup_eq m (List.mem_append_right _ hm)
  simp only [List.forall_mem_cons] at hothers
  show ofJson? (.object (Json.present bag.members)) = some bag
  simp only [ofJson?, hholds.members?_eq, hfields, hothers, Json.optional_string,
    Option.bind_eq_bind, Option.bind_some]

theorem faithful_toJson (hfinite : bag.fields.Finite) : Json.Faithful bag.toJson := by
  refine Json.faithful_record ?_
  rw [List.forall_mem_append]
  refine ⟨FilterFields.faithful_members hfinite, ?_⟩
  simp only [List.forall_mem_cons]
  have hstring := Json.faithful_map_string
  exact ⟨hstring _, hstring _, hstring _, nofun⟩

end FilterBag

end QueryPanel
