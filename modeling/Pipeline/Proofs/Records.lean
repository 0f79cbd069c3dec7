/-
Records that read back.

A value reads back when its document is read as the value that was written
(`Json.ReadsBack`). For this the document has to be readable in all of its parts,
since a tag is only looked for in such a document, and it must not be null, since
null stands for an absent value in an optional field.

The laws here are about the ways in which documents are put together: lists, maps,
fields that are left out, records and variants. A record is read field by field
once its fields are known to have the names that the reader looks for, each at most
once (`Json.fields?_record`); a variant is read by its tag once no field of it has
the name of the tag (`Json.tagged?_record`).
-/
import Mathlib.Data.List.Forall2
import Mathlib.Data.List.Nodup
import Pipeline.Json.Record

set_option autoImplicit false

namespace Pipeline

/-! ## Sorted bindings -/

namespace Entries

variable {β : Type}

theorem insert_of_lt {key : String} (value : β) {entries : List (String × β)}
    (h : ∀ entry ∈ entries, entry.1 < key) :
    insert key value entries = entries ++ [(key, value)] := by
  induction entries with
  | nil => rfl
  | cons entry entries ih =>
    obtain ⟨hentry, hentries⟩ := List.forall_mem_cons.1 h
    have hlt : ¬ key < entry.1 := String.lt_asymm hentry
    have hne : ¬ key = entry.1 := (Std.ne_of_lt hentry).symm
    rw [insert, if_neg hlt, if_neg hne, ih hentries]
    rfl

theorem foldl_insert_of_sorted (bindings : List (String × β)) {start : List (String × β)}
    (h : Sorted (start ++ bindings)) :
    bindings.foldl (fun sorted binding => insert binding.1 binding.2 sorted) start =
      start ++ bindings := by
  induction bindings generalizing start with
  | nil => rw [List.foldl_nil, List.append_nil]
  | cons binding bindings ih =>
    -- What has been taken up is smaller than what is still to come.
    have hlast : insert binding.1 binding.2 start = start ++ [binding] :=
      insert_of_lt binding.2 fun entry hentry =>
        (List.pairwise_append.1 h).2.2 entry hentry binding List.mem_cons_self
    rw [List.append_cons] at h
    rw [List.foldl_cons, hlast, ih h, ← List.append_cons]

/-- Sorting leaves sorted bindings as they are. -/
theorem sort_of_sorted {bindings : List (String × β)} (h : Sorted bindings) :
    sort bindings = bindings :=
  foldl_insert_of_sorted bindings h

end Entries

/-- A map is the map of its entries. -/
theorem KeyMap.ofList_entries {β : Type} (map : KeyMap β) : KeyMap.ofList map.entries = map :=
  KeyMap.ext (Entries.sort_of_sorted map.sorted)

namespace Json

variable {α : Type}

/-! ## Readable documents -/

theorem isReadable_array {items : List Json} :
    (Json.array items).isReadable = true ↔ ∀ item ∈ items, item.isReadable = true := by
  rw [isReadable]
  induction items with
  | nil => simp [allReadable]
  | cons item items ih => simp [allReadable, ih]

theorem isReadable_object {members : List (String × Json)} :
    (Json.object members).isReadable = true ↔
      ∀ member ∈ members, member.2.isReadable = true := by
  rw [isReadable]
  induction members with
  | nil => simp [membersReadable]
  | cons member members ih => simp [membersReadable, ih]

/-! ## Documents that read back -/

/-- The document that is written for a value is read as the value; it is readable and not null. -/
structure ReadsBack (read? : Json → Option α) (write : α → Json) (value : α) : Prop where
  readable : (write value).isReadable = true
  notNull : write value ≠ .null
  reads : read? (write value) = some value

variable {read? : Json → Option α} {write : α → Json}

/-- Only what the reader makes of this one document counts. -/
theorem ReadsBack.congr {value : α} {other? : Json → Option α} (h : ReadsBack read? write value)
    (hother : other? (write value) = read? (write value)) : ReadsBack other? write value :=
  ⟨h.readable, h.notNull, hother.trans h.reads⟩

theorem ReadsBack.string (text : String) : ReadsBack string? .string text where
  readable := rfl
  notNull := by simp
  reads := rfl

/-- What is written as a text reads back when the text does. -/
theorem ReadsBack.text {text : α → String} {ofText? : String → Option α} {value : α}
    (h : ofText? (text value) = some value) :
    ReadsBack (fun document => (string? document).bind ofText?) (fun value => .string (text value))
      value where
  readable := rfl
  notNull := by simp
  reads := h

theorem ReadsBack.name {name : α → String} {ofName? : String → Option α} {value : α}
    (h : ofName? (name value) = some value) :
    ReadsBack (name? ofName?) (fun value => .string (name value)) value where
  readable := rfl
  notNull := by simp
  reads := h

theorem ReadsBack.uint64 (value : UInt64) : ReadsBack uint64? ofUInt64 value where
  readable := rfl
  notNull := by simp [ofUInt64, ofNat, ofInt]
  reads := by
    have hlt : value.toNat < UInt64.size := value.toNat_lt
    simp [ofUInt64, ofNat, ofInt, uint64?, hlt]

/-- What is written value by value is read value by value. -/
theorem mapM_map_eq_some {β γ : Type} {write : β → γ} {read? : γ → Option β} {values : List β}
    (h : ∀ value ∈ values, read? (write value) = some value) :
    (values.map write).mapM read? = some values := by
  induction values with
  | nil => rfl
  | cons value values ih =>
    obtain ⟨hvalue, hvalues⟩ := List.forall_mem_cons.1 h
    simp [hvalue, ih hvalues]

/-- Whatever was read was read from something. -/
theorem exists_of_mem_mapM {β γ : Type} {read? : γ → Option β} {documents : List γ}
    {values : List β} (h : documents.mapM read? = some values) {value : β} (hmem : value ∈ values) :
    ∃ document ∈ documents, read? document = some value := by
  induction documents generalizing values with
  | nil =>
    obtain rfl := Option.some.inj h
    cases hmem
  | cons document documents ih =>
    simp only [List.mapM_cons, Option.bind_eq_bind, Option.bind_eq_some_iff] at h
    obtain ⟨first, hfirst, rest, hrest, h⟩ := h
    obtain rfl := Option.some.inj h
    rcases List.mem_cons.1 hmem with rfl | hmem
    · exact ⟨document, List.mem_cons_self, hfirst⟩
    · obtain ⟨other, hother, hread⟩ := ih hrest hmem
      exact ⟨other, List.mem_cons_of_mem _ hother, hread⟩

/-- A list reads back when its members do. -/
theorem ReadsBack.list (values : List α) (h : ∀ value ∈ values, ReadsBack read? write value) :
    ReadsBack (list? read?) (fun values => .array (values.map write)) values where
  readable := by
    rw [isReadable_array, List.forall_mem_map]
    exact fun value hvalue => (h value hvalue).readable
  notNull := by simp
  reads := mapM_map_eq_some fun value hvalue => (h value hvalue).reads

/-- A map reads back when its values do: its entries are sorted already. -/
theorem ReadsBack.keyMap (map : KeyMap α)
    (h : ∀ entry ∈ map.entries, ReadsBack read? write entry.2) :
    ReadsBack (keyMap? read?) (ofKeyMap write) map where
  readable := by
    rw [ofKeyMap, isReadable_object, List.forall_mem_map]
    exact fun entry hentry => (h entry hentry).readable
  notNull := by simp [ofKeyMap]
  reads := by
    have hentries : (map.entries.map fun entry => (entry.1, write entry.2)).mapM
        (fun member => (read? member.2).map (Prod.mk member.1)) = some map.entries := by
      refine mapM_map_eq_some fun entry hentry => ?_
      rw [(h entry hentry).reads, Option.map_some]
    rw [ofKeyMap, keyMap?, hentries, Option.map_some, KeyMap.ofList_entries]

/-! ## Fields -/

/-- The field has this name, if it is there. -/
def IsNamed (name : String) (field : Option (String × Json)) : Prop :=
  ∀ member ∈ field, member.1 = name

/-- The field has this name, if it is there, and can be read. -/
def IsField (name : String) (field : Option (String × Json)) : Prop :=
  ∀ member ∈ field, member.1 = name ∧ member.2.isReadable = true

theorem IsField.isNamed {name : String} {field : Option (String × Json)} (h : IsField name field) :
    IsNamed name field :=
  fun member hmember => (h member hmember).1

theorem isNamed_field (name : String) (value : Json) : IsNamed name (field name value) := by
  intro member hmember
  obtain rfl := Option.some.inj hmember
  rfl

theorem isNamed_field? (name : String) (write : α → Json) (value : Option α) :
    IsNamed name (field? name write value) := by
  intro member hmember
  obtain ⟨present, -, rfl⟩ := Option.map_eq_some_iff.1 hmember
  rfl

/-- What a field holds, if it is there. -/
def content (field : Option (String × Json)) : Option Json := field.map Prod.snd

/-- A value can be read from the field that is written for it. -/
structure FieldReadsBack {β : Type} (name : String) (field : Option (String × Json))
    (read? : Option Json → Option β) (value : β) : Prop where
  isField : IsField name field
  reads : read? (content field) = some value

theorem isField_field {name : String} {value : Json} (h : value.isReadable = true) :
    IsField name (field name value) := by
  intro member hmember
  obtain rfl := Option.some.inj hmember
  exact ⟨rfl, h⟩

theorem isField_none (name : String) : IsField name none := by simp [IsField]

theorem ReadsBack.required {value : α} (h : ReadsBack read? write value) (name : String) :
    FieldReadsBack name (field name (write value)) (required read?) value :=
  ⟨isField_field h.readable, h.reads⟩

theorem ReadsBack.defaulted {value : α} (h : ReadsBack read? write value) (name : String)
    (default : α) :
    FieldReadsBack name (field name (write value)) (defaulted read? default) value :=
  ⟨isField_field h.readable, h.reads⟩

/-- Only null is read as an absent value. -/
theorem optional_of_ne_null {document : Json} (h : document ≠ .null) :
    Json.optional read? (some document) = (read? document).map some := by
  cases document <;> first | rfl | exact absurd rfl h

/-- An absent value is left out, and one that is left out is absent. -/
theorem ReadsBack.optional (value : Option α)
    (h : ∀ present ∈ value, ReadsBack read? write present) (name : String) :
    FieldReadsBack name (field? name write value) (optional read?) value := by
  cases value with
  | none => exact ⟨isField_none name, rfl⟩
  | some present =>
    have hpresent := h present rfl
    refine ⟨isField_field hpresent.readable, ?_⟩
    exact (optional_of_ne_null hpresent.notNull).trans (by rw [hpresent.reads]; rfl)

/-- A value that is left out when it is the default is the default when it is left out. -/
theorem ReadsBack.unless {value default : α} {field : Option (String × Json)} (name : String)
    (h : ReadsBack read? write value)
    (hfield : field = Json.field name (write value) ∨ field = none ∧ value = default) :
    FieldReadsBack name field (Json.defaulted read? default) value := by
  rcases hfield with rfl | ⟨rfl, rfl⟩
  · exact h.defaulted name default
  · exact ⟨isField_none name, rfl⟩

theorem ReadsBack.listUnlessEmpty (values : List α)
    (h : ∀ value ∈ values, ReadsBack read? write value) (name : String) :
    FieldReadsBack name (fieldUnlessEmpty name write values) (Json.defaulted (list? read?) [])
      values := by
  refine ReadsBack.unless name (.list values h) ?_
  cases values with
  | nil => exact .inr ⟨rfl, rfl⟩
  | cons value values => exact .inl rfl

theorem ReadsBack.mapUnlessEmpty (map : KeyMap α)
    (h : ∀ entry ∈ map.entries, ReadsBack read? write entry.2) (name : String) :
    FieldReadsBack name (mapUnlessEmpty name write map) (Json.defaulted (keyMap? read?) .empty)
      map := by
  refine ReadsBack.unless name (.keyMap map h) ?_
  rw [Json.mapUnlessEmpty]
  split
  · rename_i hempty
    exact .inr ⟨rfl, KeyMap.ext (List.isEmpty_iff.1 hempty)⟩
  · exact .inl rfl

/-! ## Records -/

variable {names : List String} {fields : List (Option (String × Json))}

/-- The members of a record have the names of its fields, in order. -/
theorem keys_sublist (hnamed : List.Forall₂ IsNamed names fields) :
    ((fields.filterMap id).map Prod.fst).Sublist names := by
  induction hnamed with
  | nil => exact .slnil
  | @cons name field names fields hfield _ ih =>
    cases field with
    | none => exact .cons name ih
    | some member =>
      obtain rfl := hfield member rfl
      exact .cons_cons member.1 ih

/-- No member has a name that is not among those of the fields. -/
theorem ne_of_notMem (hnamed : List.Forall₂ IsNamed names fields) {name : String}
    (hname : name ∉ names) {member : String × Json} (hmember : member ∈ fields.filterMap id) :
    member.1 ≠ name := by
  rintro rfl
  exact hname ((keys_sublist hnamed).subset (List.mem_map_of_mem hmember))

/-- Each field is found under its name. -/
theorem get?_fields (hnamed : List.Forall₂ IsNamed names fields) (hnodup : names.Nodup) :
    names.map (fun name => Entries.get? name (fields.filterMap id)) = fields.map content := by
  induction hnamed with
  | nil => rfl
  | @cons name field names fields hfield hfields ih =>
    obtain ⟨hname, hnames⟩ := List.nodup_cons.1 hnodup
    have hrest := ih hnames
    rw [List.map_cons, List.map_cons]
    cases field with
    | none =>
      have habsent : Entries.get? name (fields.filterMap id) = none :=
        Entries.get?_eq_none.2 fun hmem => hname ((keys_sublist hfields).subset hmem)
      exact List.cons_eq_cons.2 ⟨habsent, hrest⟩
    | some member =>
      obtain rfl := hfield member rfl
      -- The first member answers for its own name and for no other one.
      refine List.cons_eq_cons.2 ⟨if_pos rfl, ?_⟩
      rw [← hrest]
      refine List.map_congr_left fun key hkey => ?_
      have hne : member.1 ≠ key := by
        rintro rfl
        exact hname hkey
      exact if_neg hne

/-- A record with fields of different names is read as its fields. -/
theorem fields?_record (hnamed : List.Forall₂ IsNamed names fields) (hnodup : names.Nodup) :
    (record fields).fields? names = some (fields.map content) := by
  have hcount : ∀ name, (fields.filterMap id).countP (·.1 = name) ≤ 1 := by
    intro name
    have hkeys := List.nodup_iff_count_le_one.1 ((keys_sublist hnamed).nodup hnodup) name
    rwa [List.count, List.countP_map] at hkeys
  rw [record, fields?, if_pos, get?_fields hnamed hnodup]
  simp only [List.all_eq_true, decide_eq_true_eq]
  exact fun name _ => hcount name

theorem areNamed_of_areFields (hfields : List.Forall₂ IsField names fields) :
    List.Forall₂ IsNamed names fields :=
  hfields.imp fun _ _ => IsField.isNamed

theorem isReadable_record (hfields : List.Forall₂ IsField names fields) :
    (record fields).isReadable = true := by
  rw [record, isReadable_object]
  induction hfields with
  | nil => simp
  | @cons name field names fields hfield _ ih =>
    cases field with
    | none => exact ih
    | some member => exact List.forall_mem_cons.2 ⟨(hfield member rfl).2, ih⟩

/-- A value can be read from fields of these names, which are all different. -/
structure RecordReadsBack (names : List String) (fields : List (Option (String × Json)))
    (read? : Json → Option α) (value : α) : Prop where
  areFields : List.Forall₂ IsField names fields
  nodup : names.Nodup
  reads : ∀ document, document.fields? names = some (fields.map content) →
    read? document = some value

/-- A record reads back when its fields do. -/
theorem RecordReadsBack.readsBack {value : α} (h : RecordReadsBack names fields read? value)
    (hwrite : write value = record fields) : ReadsBack read? write value where
  readable := by rw [hwrite, isReadable_record h.areFields]
  notNull := by simp [hwrite, record]
  reads := by
    rw [hwrite]
    exact h.reads _ (fields?_record (areNamed_of_areFields h.areFields) h.nodup)

/-! ## Variants -/

/-- A first member whose key no other one has is told from the others by its key. -/
theorem filter_key {key : String} (value : Json) {members : List (String × Json)}
    (h : ∀ member ∈ members, member.1 ≠ key) :
    ((key, value) :: members).filter (·.1 = key) = [(key, value)] ∧
      ((key, value) :: members).filter (·.1 ≠ key) = members := by
  constructor
  · rw [List.filter_cons_of_pos (by simp), List.filter_eq_nil_iff.2]
    exact fun member hmember => mt of_decide_eq_true (h member hmember)
  · rw [List.filter_cons_of_neg (by simp), List.filter_eq_self.2]
    exact fun member hmember => decide_eq_true (h member hmember)

/-- Exactly one member of the document has the name of the tag, and it holds a name. -/
def TaggedOnce (tag name : String) (document : Json) : Prop :=
  document.members.filter (·.1 = tag) = [(tag, .string name)]

/-- A tag that is not the name of a field stands alone. -/
theorem taggedOnce_record {tag name : String} (hnamed : List.Forall₂ IsNamed names fields)
    (htag : tag ∉ names) : TaggedOnce tag name (record (field tag (.string name) :: fields)) :=
  (filter_key (.string name) fun _ => ne_of_notMem hnamed htag).1

/-- A variant is read as its tag and the record of its fields. -/
theorem tagged?_record {tag name : String} (hfields : List.Forall₂ IsField names fields)
    (htag : tag ∉ names) :
    (record (field tag (.string name) :: fields)).tagged? tag = some (name, record fields) := by
  have hmembers : record (field tag (.string name) :: fields) =
      .object ((tag, .string name) :: fields.filterMap id) := rfl
  have hreadable : (record (field tag (.string name) :: fields)).isReadable = true :=
    isReadable_record (.cons (isField_field rfl) hfields)
  obtain ⟨honce, hrest⟩ := filter_key (.string name)
    fun _ => ne_of_notMem (areNamed_of_areFields hfields) htag
  rw [hmembers] at hreadable ⊢
  rw [tagged?, if_pos hreadable]
  simp only [honce, hrest]
  rfl

/-- A variant reads back when it does by its tag and its fields. -/
theorem ReadsBack.of_variant {tag name : String} {value : α}
    (hfields : List.Forall₂ IsField names fields) (hnodup : (tag :: names).Nodup)
    (hwrite : write value = record (field tag (.string name) :: fields))
    (hreads : ∀ document rest, document.tagged? tag = some (name, rest) →
      rest.fields? names = some (fields.map content) → read? document = some value) :
    ReadsBack read? write value := by
  obtain ⟨htag, hnames⟩ := List.nodup_cons.1 hnodup
  refine ⟨?_, by simp [hwrite, record], ?_⟩
  · rw [hwrite]
    exact isReadable_record (.cons (isField_field rfl) hfields)
  · refine hreads _ (record fields) ?_ (fields?_record (areNamed_of_areFields hfields) hnames)
    rw [hwrite, tagged?_record hfields htag]

/-! ## Nesting -/

theorem depth_lt_array {item : Json} {items : List Json} (h : item ∈ items) :
    item.depth < (Json.array items).depth := by
  rw [depth, Nat.lt_succ_iff]
  induction items with
  | nil => cases h
  | cons first items ih =>
    rw [itemsDepth]
    rcases List.mem_cons.1 h with rfl | h
    · exact Nat.le_max_left _ _
    · exact Nat.le_trans (ih h) (Nat.le_max_right _ _)

theorem depth_lt_record {name : String} {value : Json} (h : some (name, value) ∈ fields) :
    value.depth < (record fields).depth := by
  have hmember : (name, value) ∈ fields.filterMap id := List.mem_filterMap.2 ⟨_, h, rfl⟩
  rw [record, depth, Nat.lt_succ_iff]
  generalize fields.filterMap id = members at hmember
  induction members with
  | nil => cases hmember
  | cons first members ih =>
    rw [membersDepth]
    rcases List.mem_cons.1 hmember with rfl | hmember
    · exact Nat.le_max_left _ _
    · exact Nat.le_trans (ih hmember) (Nat.le_max_right _ _)

/-- A tag does not nest anything. -/
theorem depth_variant (tag name : String) :
    (record (field tag (.string name) :: fields)).depth = (record fields).depth := by
  simp [record, field, depth, membersDepth]

end Json

end Pipeline
