/-
TableMapper.Proofs.JsonSchema.Places — the place of a document is told
by its errors and by nothing else.

What is read at one place is read as the same schema at every other
(`readAnywhere`), so a document can be looked at where it stands or on
its own. The induction is on the document; each reader takes the
children of its fields as given.
-/
import TableMapper.Proofs.JsonSchema.Expressed

namespace TableMapper.JsonSchema

/-! ## 1. Readers of fields -/

/-- Whatever the document is read as at a place, it is read as at every
other. -/
def ReadAnywhere (document : Json) : Prop :=
  ∀ place other s, ofJson place document = .ok s → ofJson other document = .ok s

theorem requiredNames_anywhere {place : Pointer} (other : Pointer) {fields : Fields Json}
    {names : List String} (h : requiredNames place fields = .ok names) :
    requiredNames other fields = .ok names := by
  unfold requiredNames at h ⊢
  split at h
  · exact h
  · split at h
    · next hnames => simpa only [hnames] using h
    · cases h
  · cases h

theorem typeNames_anywhere {place : Pointer} (other : Pointer) {type : Json} {names : List String}
    (h : typeNames place type = .ok names) : typeNames other type = .ok names := by
  unfold typeNames at h ⊢
  split at h
  · exact h
  · cases h
  · split at h
    · next hnames => simpa only [hnames] using h
    · cases h
  · cases h

theorem enumerationMembers_anywhere {place : Pointer} (other : Pointer) {values : List Json}
    {names : Json} {members : List (String × Json)}
    (h : enumerationMembers place values names = .ok members) :
    enumerationMembers other values names = .ok members := by
  unfold enumerationMembers at h ⊢
  simp only at h ⊢
  split at h
  · cases h
  · next hnames =>
    split at h
    · next hlength => simpa only [if_pos hlength] using h
    · cases h

theorem ofKind_mono {array object array' object' : Except SchemaError Schema}
    (harray : ∀ s, array = .ok s → array' = .ok s)
    (hobject : ∀ s, object = .ok s → object' = .ok s) {kind : TypeName} {s : Schema}
    (h : ofKind array object kind = .ok s) : ofKind array' object' kind = .ok s := by
  cases kind with
  | array => exact harray s h
  | object => exact hobject s h
  | _ => exact h

/-- Alternatives are the same where arrays and objects are read as the
same. -/
theorem alternatives_anywhere {place : Pointer} (other : Pointer)
    {array object array' object' : Except SchemaError Schema}
    (harray : ∀ s, array = .ok s → array' = .ok s)
    (hobject : ∀ s, object = .ok s → object' = .ok s) {names : List String}
    {seen : List TypeName} {schemas : List Schema}
    (h : alternatives place array object seen names = .ok schemas) :
    alternatives other array' object' seen names = .ok schemas := by
  induction names generalizing seen schemas with
  | nil =>
    rw [alternatives_nil] at h ⊢
    exact h
  | cons name names ih =>
    rw [alternatives_cons] at h ⊢
    split at h
    · cases h
    · next kind hkind =>
      split at h
      · next hseen =>
        rw [if_pos hseen]
        exact ih h
      · next hseen =>
        obtain ⟨first, hfirst, h⟩ := bind_eq_ok_iff.mp h
        obtain ⟨others, hothers, h⟩ := bind_eq_ok_iff.mp h
        rw [if_neg hseen]
        exact bind_eq_ok_iff.mpr ⟨first, ofKind_mono harray hobject hfirst,
          bind_eq_ok_iff.mpr ⟨others, ih hothers, h⟩⟩

/-! ## 2. Readers of parts -/

theorem ofBranches_anywhere {place : Pointer} (other : Pointer) {branches : List Json}
    (hbranches : ∀ sub ∈ branches, ReadAnywhere sub) {index : Nat} {schemas : List Schema}
    (h : ofBranches place index branches = .ok schemas) :
    ofBranches other index branches = .ok schemas := by
  induction branches generalizing index schemas with
  | nil =>
    rw [ofBranches_nil] at h ⊢
    exact h
  | cons branch rest ih =>
    rw [List.forall_mem_cons] at hbranches
    rw [ofBranches_cons] at h ⊢
    obtain ⟨s, hs, h⟩ := bind_eq_ok_iff.mp h
    obtain ⟨others, hothers, h⟩ := bind_eq_ok_iff.mp h
    exact bind_eq_ok_iff.mpr ⟨s, hbranches.1 _ _ s hs,
      bind_eq_ok_iff.mpr ⟨others, ih hbranches.2 hothers, h⟩⟩

theorem isProperty_anywhere {place : Pointer} (other : Pointer) {required : List String}
    {documents : Fields Json} (hdocuments : ∀ document ∈ documents, ReadAnywhere document.2)
    {properties : List (PropertyHead × Schema)}
    (h : List.Forall₂ (IsProperty place required) documents properties) :
    List.Forall₂ (IsProperty other required) documents properties := by
  induction h with
  | nil => exact .nil
  | cons hfirst _ ih =>
    rw [List.forall_mem_cons] at hdocuments
    exact .cons ⟨hfirst.1, hdocuments.1 _ _ _ hfirst.2⟩ (ih hdocuments.2)

section Parts

variable {fields : Fields Json} (hchildren : ∀ sub, Child fields sub → ReadAnywhere sub)

include hchildren

theorem readAnywhere_branches {keyword : String} {branches : List Json}
    (hkeyword : keyword ∈ ["anyOf", "oneOf", "allOf", "items"])
    (hget : Fields.get? keyword fields = some (.array branches)) :
    ∀ sub ∈ branches, ReadAnywhere sub :=
  fun sub hsub => hchildren sub (.branch hkeyword hget hsub)

/-- The schema under a keyword is the same at every place. -/
theorem ofKeywords_under {keyword : String} {inner : Fields Json}
    (hkeyword : keyword ∈ ["items", "additionalProperties"])
    (hget : Fields.get? keyword fields = some (.object inner)) {place : Pointer} (other : Pointer)
    {s : Schema} (h : ofKeywords place inner = .ok s) : ofKeywords other inner = .ok s := by
  rw [← ofJson_object] at h ⊢
  exact hchildren _ (.under hkeyword hget) place other s h

theorem ofArray_anywhere {place : Pointer} (other : Pointer) {s : Schema}
    (h : ofArray place fields = .ok s) : ofArray other fields = .ok s := by
  rw [ofArray_eq] at h ⊢
  split at h
  · exact h
  · next items hitems =>
    obtain ⟨schemas, hschemas, hs⟩ := map_eq_ok_iff.mp h
    exact map_eq_ok_iff.mpr ⟨schemas, ofBranches_anywhere _
      (readAnywhere_branches hchildren (by decide) hitems) hschemas, hs⟩
  · next element helement =>
    obtain ⟨read, hread, hs⟩ := map_eq_ok_iff.mp h
    exact map_eq_ok_iff.mpr
      ⟨read, ofKeywords_under hchildren (by decide) helement _ hread, hs⟩
  · next element helement =>
    obtain ⟨read, hread, hs⟩ := map_eq_ok_iff.mp h
    exact map_eq_ok_iff.mpr ⟨read, hchildren _ (.under (by decide) helement) _ _ read hread, hs⟩
  · cases h

theorem readProperties_anywhere {place : Pointer} (other : Pointer) {required : List String}
    {properties : List (PropertyHead × Schema)}
    (h : readProperties place required fields = .ok properties) :
    readProperties other required fields = .ok properties := by
  unfold readProperties at h ⊢
  split at h
  · exact h
  · next documents hget =>
    rw [ofProperties_eq_ok_iff] at h ⊢
    exact isProperty_anywhere _ (fun document hmem => hchildren _ (.property hget hmem)) h
  · cases h

theorem readFurther_anywhere {place : Pointer} (other : Pointer) {further : Option Schema}
    (h : readFurther place fields = .ok further) : readFurther other fields = .ok further := by
  unfold readFurther at h ⊢
  split at h
  · exact h
  · exact h
  · exact h
  · next inner hinner =>
    obtain ⟨s, hs, hfurther⟩ := map_eq_ok_iff.mp h
    exact map_eq_ok_iff.mpr ⟨s, ofKeywords_under hchildren (by decide) hinner _ hs, hfurther⟩
  · cases h

theorem ofObject_anywhere {place : Pointer} (other : Pointer) {s : Schema}
    (h : ofObject place fields = .ok s) : ofObject other fields = .ok s := by
  obtain ⟨required, properties, further, hrequired, hproperties, hfurther, rfl⟩ :=
    ofObject_eq_ok_iff.mp h
  exact ofObject_eq_ok_iff.mpr ⟨required, properties, further, requiredNames_anywhere _ hrequired,
    readProperties_anywhere hchildren _ hproperties, readFurther_anywhere hchildren _ hfurther, rfl⟩

/-! ## 3. Schemas -/

/-- What a keyword decides is the same at every place. -/
theorem readBy_anywhere {keyword : Keyword} {value : Json} {place : Pointer} (other : Pointer)
    {s : Schema} (hget : Fields.get? keyword.text fields = some value)
    (h : readBy place fields keyword value = .ok s) :
    readBy other fields keyword value = .ok s := by
  have hbranches : ∀ {branches : List Json} {place : Pointer} (other : Pointer)
      {make : List Schema → Schema}, keyword.text ∈ ["anyOf", "oneOf", "allOf", "items"] →
      value = .array branches → (ofBranches place 0 branches).map make = .ok s →
      (ofBranches other 0 branches).map make = .ok s := by
    rintro branches place other make hkeyword rfl h
    obtain ⟨schemas, hschemas, hs⟩ := map_eq_ok_iff.mp h
    exact map_eq_ok_iff.mpr ⟨schemas, ofBranches_anywhere other
      (readAnywhere_branches hchildren hkeyword hget) hschemas, hs⟩
  unfold readBy at h ⊢
  split at h
  · exact h
  · cases h
  · split at h
    · obtain ⟨members, hmembers, hs⟩ := map_eq_ok_iff.mp h
      exact map_eq_ok_iff.mpr ⟨members, enumerationMembers_anywhere _ hmembers, hs⟩
    · exact h
  · cases h
  · exact h
  · exact hbranches _ (by decide) rfl h
  · cases h
  · exact hbranches _ (by decide) rfl h
  · cases h
  · exact hbranches _ (by decide) rfl h
  · cases h
  · obtain ⟨names, hnames, h⟩ := bind_eq_ok_iff.mp h
    obtain ⟨schemas, hschemas, h⟩ := bind_eq_ok_iff.mp h
    exact bind_eq_ok_iff.mpr ⟨names, typeNames_anywhere _ hnames, bind_eq_ok_iff.mpr ⟨schemas,
      alternatives_anywhere _ (fun _ => ofArray_anywhere hchildren _)
        (fun _ => ofObject_anywhere hchildren _) hschemas, h⟩⟩
  · exact ofObject_anywhere hchildren _ h
  · exact ofArray_anywhere hchildren _ h

theorem ofKeywords_anywhere {place : Pointer} (other : Pointer) {s : Schema}
    (h : ofKeywords place fields = .ok s) : ofKeywords other fields = .ok s := by
  rw [ofKeywords_eq] at h ⊢
  split at h
  · exact h
  · next hdecision => exact readBy_anywhere hchildren _ (get?_of_decision? hdecision) h

end Parts

/-- What is read at a place is read at every other. -/
theorem readAnywhere (document : Json) : ReadAnywhere document := by
  intro place other s h
  rcases ofJson_eq_ok h with ⟨hdocument, hs⟩ | ⟨hdocument, hs⟩ | ⟨fields, hdocument, h⟩
  · rw [hdocument, hs, ofJson]
  · rw [hdocument, hs, ofJson]
  · rw [hdocument, ofJson_object]
    exact ofKeywords_anywhere (fun sub hsub => readAnywhere sub) other h
termination_by sizeOf document
decreasing_by
  rw [hdocument]
  exact hsub.sizeOf_lt

end TableMapper.JsonSchema
