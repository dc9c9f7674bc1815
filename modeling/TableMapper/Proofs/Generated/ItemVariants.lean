/-
TableMapper.Proofs.Generated.ItemVariants — the members of the three
types of an item.

An item is put together from what a caller gives, an uninitialized item,
and from what providers give, the generated part. The two types are made
from the schema of the item by edits of their own: other names are
required in one, and the properties of the other are fewer. What follows
is that together they have what the whole item requires, each member in
exactly one of them, and that the entries by which a mapper fills the
generated part are its members. Members are those that are read from the
text of the file.
-/
import TableMapper.Proofs.Generated.MapperFailure

namespace TableMapper

open JsonSchema (Schema)
open TypeScript (Declarations Enumeration ReadMember Style Token TypeExpr asRead)

/-! ## 1. Members under other heads -/

/-- The head of a property when just the given names are required. -/
def PropertyHead.requiredAmong (names : List String) (head : PropertyHead) : PropertyHead :=
  { head with required := names.contains head.name }

namespace JsonSchema

/-- Properties whose heads are changed, but not their names, become the
same types and the same enumerations. -/
theorem membersOf_run_mapHead (change : PropertyHead → PropertyHead)
    (hname : ∀ head, (change head).name = head.name)
    (properties : List (PropertyHead × Schema)) (known : List Enumeration) :
    (membersOf (properties.map (Prod.map change id))).run known =
      (((membersOf properties).run known).1.map (Prod.map change id),
        ((membersOf properties).run known).2) := by
  induction properties generalizing known with
  | nil => rfl
  | cons p rest ih =>
    obtain ⟨head, s⟩ := p
    rw [List.map_cons, Prod.map_apply, membersOf_cons, membersOf_cons, hname, id_eq, ih]
    rfl

/-- Read with other names required, properties differ in nothing but
that. -/
theorem eq_map_of_isProperty {place : Pointer} {required others : List String} :
    ∀ {documents : Fields Json} {read again : List (PropertyHead × Schema)},
      List.Forall₂ (IsProperty place required) documents read →
      List.Forall₂ (IsProperty place others) documents again →
        again = read.map (Prod.map (PropertyHead.requiredAmong others) id)
  | _, _, _, .nil, .nil => rfl
  | _, (head, s) :: _, (head', s') :: _, .cons h hrest, .cons h' hrest' => by
    rw [List.map_cons, ← eq_map_of_isProperty hrest hrest', Prod.map_apply]
    have hschema := (h.schema_eq h').2
    have hhead := h.1
    have hhead' := h'.1
    simp only at hschema hhead hhead'
    rw [hhead', hhead, hschema]
    rfl

end JsonSchema

/-! ## 2. The three types -/

/-- The names of the members that are not optional. -/
def requiredMembers (members : List ReadMember) : List String :=
  (members.filter (!·.optional)).map (·.name)

theorem mem_requiredMembers {members : List ReadMember} {name : String} :
    name ∈ requiredMembers members ↔
      ∃ member ∈ members, member.name = name ∧ member.optional = false := by
  rw [requiredMembers, List.mem_map]
  constructor
  · rintro ⟨member, hmember, hname⟩
    obtain ⟨hmember, hrequired⟩ := List.mem_filter.mp hmember
    exact ⟨member, hmember, hname, by simpa using hrequired⟩
  · rintro ⟨member, hmember, hname, hrequired⟩
    exact ⟨member, List.mem_filter.mpr ⟨hmember, by simpa using hrequired⟩, hname⟩

namespace Item

/-- A member of the whole item as one of the uninitialized item: it is
optional if its field is generated. -/
def uninitializedMember (i : Item) (member : ReadMember) : ReadMember :=
  { member with optional := member.optional || i.isGenerated member.name }

/-- The members of the three types of an item: of the whole item, of the
uninitialized item and of the generated part. -/
structure MembersAgree (i : Item) (whole uninitialized part : List ReadMember) : Prop where
  /-- The members of the whole item are the properties, in order. -/
  properties : whole.map (·.name) = i.schema.properties.names
  /-- The uninitialized item has the same members with the same types in
  the same order, and of those that are not optional it keeps the ones
  that are not generated. -/
  variant : uninitialized = whole.map i.uninitializedMember
  /-- The generated part has the properties that are generated, in the
  order of the properties. -/
  generated : part.map (·.name) = i.schema.properties.names.filter i.generatedKeys.contains
  /-- Nothing in it is optional. -/
  required : ∀ member ∈ part, member.optional = false
  /-- What is not optional in the whole item is not optional in exactly
  one of the other two. -/
  exactlyOne : ∀ name ∈ requiredMembers whole,
    (name ∈ requiredMembers uninitialized ↔ name ∉ requiredMembers part)

theorem isGenerated_iff {i : Item} {name : String} :
    i.isGenerated name = true ↔ name ∈ i.generatedKeys :=
  Dictionary.contains_iff_mem_names

/-- The properties of the generated part. -/
theorem names_generated (i : Item) :
    Fields.names (i.propertiesWhere i.isGenerated) =
      i.schema.properties.names.filter i.generatedKeys.contains := by
  rw [Mapper.names_propertiesWhere]
  refine List.filter_congr fun name _ => ?_
  rw [Bool.eq_iff_iff, isGenerated_iff, List.contains_iff_mem]

/-- What is not optional is divided between the two variants. -/
theorem exactlyOne_of_members {i : Item} {whole part : List ReadMember}
    (hproperties : whole.map (·.name) = i.schema.properties.names)
    (hgenerated : part.map (·.name) = i.schema.properties.names.filter i.generatedKeys.contains)
    (hrequired : ∀ member ∈ part, member.optional = false) {name : String}
    (hname : name ∈ requiredMembers whole) :
    name ∈ requiredMembers (whole.map i.uninitializedMember) ↔ name ∉ requiredMembers part := by
  obtain ⟨member, hmember, rfl, hmemberRequired⟩ := mem_requiredMembers.mp hname
  have hpart : member.name ∈ requiredMembers part ↔ i.isGenerated member.name = true := by
    have hproperty : member.name ∈ i.schema.properties.names :=
      hproperties ▸ List.mem_map_of_mem hmember
    have hmem : member.name ∈ part.map (·.name) ↔ i.isGenerated member.name = true := by
      rw [hgenerated, List.mem_filter, List.contains_iff_mem, ← isGenerated_iff]
      exact and_iff_right hproperty
    rw [← hmem, mem_requiredMembers, List.mem_map]
    constructor
    · rintro ⟨other, hother, hsame, -⟩
      exact ⟨other, hother, hsame⟩
    · rintro ⟨other, hother, hsame⟩
      exact ⟨other, hother, hsame, hrequired other hother⟩
  rw [hpart, mem_requiredMembers]
  constructor
  · rintro ⟨other, hother, hsame, hotherRequired⟩
    obtain ⟨source, -, rfl⟩ := List.mem_map.mp hother
    have hnot := (Bool.or_eq_false_iff.mp hotherRequired).2
    rw [show source.name = member.name from hsame] at hnot
    simp [hnot]
  · intro hnot
    refine ⟨i.uninitializedMember member, List.mem_map_of_mem hmember, rfl, ?_⟩
    exact Bool.or_eq_false_iff.mpr ⟨hmemberRequired, by simpa using hnot⟩

theorem contains_filter (names : List String) (test : String → Bool) (name : String) :
    (names.filter test).contains name = (names.contains name && test name) := by
  rw [Bool.eq_iff_iff, Bool.and_eq_true, List.contains_iff_mem, List.contains_iff_mem,
    List.mem_filter]

/-- The interface of the whole item has the properties in order, and with
providers that of the uninitialized item has the same members, of which
the generated ones are optional. -/
theorem uninitialized_body {i : Item} {whole uninitialized : Declarations}
    (hwhole : JsonSchema.declare i.document i.typeName = .ok whole)
    (huninitialized :
      JsonSchema.declare i.uninitializedDocument i.uninitializedName = .ok uninitialized) :
    ∃ typed others further, whole.body = .interface typed further ∧
      uninitialized.body = .interface others further ∧
      (typed.map (asRead 1)).map (·.name) = i.schema.properties.names ∧
      others.map (asRead 1) = (typed.map (asRead 1)).map i.uninitializedMember := by
  have hrecord := i.schema.toFields_isRecord
  obtain ⟨required, read, hrequired, hread, -, -, hbody, -⟩ := hrecord.declare hwhole
  obtain ⟨others, again, hothers, hagain, -, -, hvariant, -⟩ :=
    (hrecord.requiring _).declare huninitialized
  obtain rfl := Except.ok.inj (hrequired.symm.trans (i.schema.requiredNames_toFields _))
  obtain rfl := Except.ok.inj (hothers.symm.trans (JsonSchema.requiredNames_insert _ _ _))
  obtain ⟨hnames, hheads⟩ := JsonSchema.heads_of_isProperty hread
  have hfst := JsonSchema.membersOf_run_heads read []
  rw [JsonSchema.eq_map_of_isProperty hread hagain,
    JsonSchema.membersOf_run_mapHead (PropertyHead.requiredAmong _) fun _ => rfl] at hvariant
  refine ⟨_, _, _, hbody, hvariant, ?_, ?_⟩
  · rw [Dictionary.names, ← names_propertyDocuments, ← hnames, ← hfst, List.map_map, List.map_map]
    rfl
  · rw [List.map_map, List.map_map]
    refine List.map_congr_left fun member hmember => ?_
    have hmemberRequired := hheads member.1 (hfst ▸ List.mem_map_of_mem hmember)
    simp only [Function.comp_apply, asRead, uninitializedMember, Prod.map_fst, Prod.map_snd, id_eq,
      PropertyHead.requiredAmong, contains_filter, hmemberRequired, Bool.not_and, Bool.not_not]

/-- With providers, the interface of the generated part has the
properties that are generated, all of them required. -/
theorem generatedPart_body {i : Item} {generatedPart : Declarations}
    (h : JsonSchema.declare i.generatedPartDocument i.generatedPartName = .ok generatedPart) :
    ∃ typed, generatedPart.body = .interface typed none ∧
      (typed.map (asRead 1)).map (·.name) =
        i.schema.properties.names.filter i.generatedKeys.contains ∧
      ∀ member ∈ typed.map (asRead 1), member.optional = false := by
  obtain ⟨fields, hfields, hrecord⟩ := i.generatedPartDocument_isRecord
  have hrequired : JsonSchema.requiredNames [] fields = .ok i.generatedKeys :=
    JsonSchema.requiredNames_of_get? (Json.object.inj hfields ▸ rfl)
  rw [hfields] at h
  obtain ⟨typed, rest, -, hbody, hnames, hmembers⟩ := hrecord.members hrequired h
  obtain ⟨-, read, -, -, -, -, hclosed, -⟩ := hrecord.declare h
  obtain ⟨rfl, rfl⟩ := TypeScript.TypeBody.interface.inj (hbody.symm.trans hclosed)
  have hgenerated := hnames.trans i.names_generated
  refine ⟨_, hclosed, ?_, ?_⟩
  · rw [← hgenerated, List.map_map]
    rfl
  · rw [List.forall_mem_map]
    intro member hmember
    have hkey := (List.mem_filter.mp (hgenerated ▸ List.mem_map_of_mem hmember)).2
    rw [asRead, hmembers member hmember, hkey]
    rfl

end Item

/-! ## 3. Symbols of providers -/

namespace Provider

/-- A character of a symbol is part of a word. -/
theorem isWordPart_of_isSymbolPart {c : Char} (h : isSymbolPart c = true) :
    TypeScript.isWordPart c = true := by
  have hlong : TypeScript.isWordPart '\u017f' = true := by decide
  have hkelvin : TypeScript.isWordPart '\u212a' = true := by decide
  simp only [isSymbolPart, isSymbolStart, isLetter, Bool.or_eq_true, decide_eq_true_eq] at h
  rcases h with ((((h | rfl) | rfl) | rfl) | rfl) | h
  · simp [TypeScript.isWordPart, TypeScript.isIdentifierPart, TypeScript.isIdentifierStart, h]
  · exact hlong
  · exact hkelvin
  · decide
  · decide
  · exact TypeScript.isWordPart_of_isDigit h

/-- A symbol is a word. -/
theorem isWord_of_isSymbol {s : String} (h : isSymbol s.toList = true) : TypeScript.IsWord s := by
  cases hs : s.toList with
  | nil =>
    rw [hs] at h
    cases h
  | cons c cs =>
    rw [hs, isSymbol, Bool.and_eq_true, List.all_eq_true] at h
    rw [TypeScript.IsWord, hs]
    refine ⟨List.cons_ne_nil _ _, List.forall_mem_cons.mpr ⟨?_, fun d hd => ?_⟩⟩
    · exact isWordPart_of_isSymbolPart (Bool.or_eq_true_iff.mpr (.inl h.1))
    · exact isWordPart_of_isSymbolPart (h.2 d hd)

/-- What is read as a provider has a symbol. -/
theorem isSymbol_of_parse {input : String} {p : Provider} (h : parse input = .ok p) :
    isSymbol p.symbol.toList = true := by
  unfold parse at h
  split at h
  · next hdefault =>
    obtain rfl := Except.ok.inj h
    unfold readDefault? at hdefault
    split at hdefault
    · split at hdefault
      · next hall =>
        obtain rfl := Option.some.inj hdefault
        rw [Bool.and_eq_true, Bool.and_eq_true] at hall
        rw [String.toList_ofList]
        exact hall.1.1
      · cases hdefault
    · cases hdefault
  · split at h
    · next hnamed =>
      obtain rfl := Except.ok.inj h
      unfold readNamed? at hnamed
      split at hnamed
      · split at hnamed
        · next hall =>
          obtain rfl := Option.some.inj hnamed
          rw [Bool.and_eq_true] at hall
          rw [String.toList_ofList]
          exact hall.2
        · cases hnamed
      · cases hnamed
    · cases h

end Provider

/-- The providers of an item that is configured have symbols. -/
theorem Item.isSymbol_of_readProviders {fields : Fields String} {d result : Dictionary Provider}
    (h : readProviders d fields = .ok result)
    (hd : ∀ entry ∈ d.entries, Provider.isSymbol entry.2.symbol.toList = true) :
    ∀ entry ∈ result.entries, Provider.isSymbol entry.2.symbol.toList = true := by
  induction fields generalizing d with
  | nil =>
    obtain rfl := Except.ok.inj h
    exact hd
  | cons field rest ih =>
    rw [readProviders] at h
    split at h
    · next p hp =>
      refine ih h fun entry hentry => ?_
      rcases Fields.mem_insert hentry with rfl | hentry
      · exact Provider.isSymbol_of_parse hp
      · exact hd entry hentry
    · cases h

theorem Mapper.isSymbol_of_ofSettings {name : String} {s : MapperSettings} {m : Mapper}
    (h : Mapper.ofSettings name s = .ok m) :
    ∀ entry ∈ m.item.providers.entries, Provider.isSymbol entry.2.symbol.toList = true := by
  obtain ⟨item, hitem, h⟩ := bind_eq_ok_iff.mp h
  obtain ⟨providers, hproviders, hitem⟩ := bind_eq_ok_iff.mp (mapError_eq_ok_iff.mp hitem)
  obtain rfl := Except.ok.inj hitem
  obtain rfl := Except.ok.inj h
  exact Item.isSymbol_of_readProviders hproviders fun entry hentry => absurd hentry List.not_mem_nil

/-! ## 4. Entries -/

namespace TypeScript

/-- Reads entries `field: symbol(),` one after the other. -/
def entriesOf? : List Token → Option (List (String × String))
  | [] => some []
  | key :: .mark ':' :: .word symbol :: .mark '(' :: .mark ')' :: .mark ',' :: rest => do
    let field ← key.key?
    return (field, symbol) :: (← entriesOf? rest)
  | _ => none

/-- The tokens of an entry. -/
def entryTokens (field symbol : String) : List Token :=
  [keyToken field, .mark ':', .word symbol, .mark '(', .mark ')', .mark ',']

theorem entriesOf?_entryTokens (field symbol : String) (rest : List Token) :
    entriesOf? (entryTokens field symbol ++ rest) =
      (entriesOf? rest).map ((field, symbol) :: ·) := by
  show entriesOf? (keyToken field :: .mark ':' :: .word symbol :: .mark '(' :: .mark ')' ::
    .mark ',' :: rest) = _
  rw [entriesOf?, Token.key?_keyToken]
  cases entriesOf? rest <;> rfl

theorem entriesOf?_flatMap (entries : List (String × String)) :
    entriesOf? (entries.flatMap fun entry => entryTokens entry.1 entry.2) = some entries := by
  induction entries with
  | nil => rfl
  | cons entry rest ih =>
    rw [List.flatMap_cons, entriesOf?_entryTokens, ih]
    rfl

/-- Texts that close, on lines of their own. -/
theorem closes_joinLines {α : Type} {write : α → String} {tokens : α → List Token} :
    ∀ {items : List α}, (∀ a ∈ items, Closes (write a).toList (tokens a)) →
      Closes (Text.joinWith "\n" (items.map write)).toList (items.flatMap tokens)
  | [], _ => Closes.nil
  | [a], h => by
    rw [List.flatMap_singleton]
    exact h a List.mem_cons_self
  | a :: b :: rest, h => by
    have ih := closes_joinLines fun c hc => h c (List.mem_cons_of_mem a hc)
    have hbreak : Closes "\n".toList [] := closes_space rfl
    rw [List.map_cons, List.map_cons, Text.toList_joinWith_cons, ← List.map_cons,
      List.flatMap_cons]
    exact (h a List.mem_cons_self).append (hbreak.append ih)

end TypeScript

namespace Mapper

/-- Reads the entries by which a mapper fills generated fields: each
field with the symbol that is called for it. -/
def readEntries? (source : String) : Option (List (String × String)) :=
  (TypeScript.tokens? source).bind TypeScript.entriesOf?

/-- The text of an entry closes behind its tokens. -/
theorem closes_generatedEntry (field : String) {p : Provider}
    (h : Provider.isSymbol p.symbol.toList = true) :
    TypeScript.Closes (generatedEntry field p).toList (TypeScript.entryTokens field p.symbol) := by
  have hcall : TypeScript.Closes "(),".toList [.mark '(', .mark ')', .mark ','] :=
    (TypeScript.closes_mark rfl).append
      ((TypeScript.closes_mark rfl).append (TypeScript.closes_mark rfl))
  have hsymbol : TypeScript.Closes (p.symbol.toList ++ "(),".toList)
      [.word p.symbol, .mark '(', .mark ')', .mark ','] :=
    (TypeScript.spells_word (Provider.isWord_of_isSymbol h)).append_closes rfl hcall
  have hcolon : TypeScript.Closes (": ".toList ++ (p.symbol.toList ++ "(),".toList))
      [.mark ':', .word p.symbol, .mark '(', .mark ')', .mark ','] :=
    ((TypeScript.closes_mark rfl).append (TypeScript.closes_space rfl)).append hsymbol
  rw [generatedEntry, String.toList_append, String.toList_append, String.toList_append,
    String.toList_append, List.append_assoc, List.append_assoc, List.append_assoc]
  exact (TypeScript.closes_indent 3).append
    ((TypeScript.spells_propertyKey field).append_closes rfl hcolon)

/-- The entries are read back: one for each provider, in order. -/
theorem readEntries?_generatedEntries {name : String} {s : MapperSettings} {m : Mapper}
    (h : Mapper.ofSettings name s = .ok m) :
    readEntries? m.generatedEntries =
      some (m.item.providers.entries.map fun (field, p) => (field, p.symbol)) := by
  have hcloses : TypeScript.Closes m.generatedEntries.toList
      (m.item.providers.entries.flatMap fun entry =>
        TypeScript.entryTokens entry.1 entry.2.symbol) := by
    refine TypeScript.closes_joinLines fun entry hentry => ?_
    obtain ⟨field, p⟩ := entry
    exact closes_generatedEntry field (isSymbol_of_ofSettings h (field, p) hentry)
  have hentries := TypeScript.entriesOf?_flatMap
    (m.item.providers.entries.map fun (field, p) => (field, p.symbol))
  rw [List.flatMap_map] at hentries
  rw [readEntries?, hcloses.spells.tokens?_eq, Option.bind_some]
  exact hentries

/-! ## 5. Initialization -/

/-- Initialization yields a complete item. In the text of the file, the
uninitialized item has the members of the whole item in the same order,
with the same type of further members, and the generated part has the
properties that are generated and is closed; a member that is not
optional in the whole item is not optional in exactly one of the two. If
every provider is for a property, the entries that a mapper fills in are
the members of the generated part, each once. -/
theorem variants_complete {name : String} {s : MapperSettings} {m : Mapper} {style : Style}
    {f : SourceFile} (hm : Mapper.ofSettings name s = .ok m)
    (hp : m.item.providers.isEmpty = false) (hf : m.item.typeFile style = .ok f) :
    ∃ (t : Item.Types) (wholeText uninitializedText partText : String)
      (whole uninitialized part : List ReadMember) (signature : Option String)
      (entries : List (String × String)),
      m.item.types = .ok t ∧
      f.body = "\n\n".intercalate [wholeText, uninitializedText, partText] ∧
      [t.whole.name, t.uninitialized.name, t.generatedPart.name] =
        [m.item.typeName, m.item.uninitializedName, m.item.generatedPartName] ∧
      t.whole.ReadsAs style wholeText whole signature ∧
      t.uninitialized.ReadsAs style uninitializedText uninitialized signature ∧
      t.generatedPart.ReadsAs style partText part none ∧
      m.item.MembersAgree whole uninitialized part ∧
      readEntries? m.generatedEntries = some entries ∧
      ((∀ key ∈ m.item.generatedKeys, key ∈ m.item.schema.properties.names) →
        (entries.map Prod.fst).Perm (part.map (·.name)) ∧ (entries.map Prod.fst).Nodup) := by
  obtain ⟨t, ht, hwhole, hu, hg, hbody⟩ := Item.typeFile_of_providers hp hf
  obtain ⟨typed, others, further, hwholeBody, huBody, hproperties, hvariant⟩ :=
    Item.uninitialized_body hwhole hu
  obtain ⟨part, hgBody, hgenerated, hrequired⟩ := Item.generatedPart_body hg
  refine ⟨t, _, _, _, _, _, _, _, _, ht, hbody, ?_,
    Declarations.readsAs_trimmed_text hwholeBody style,
    Declarations.readsAs_trimmed_text huBody style,
    Declarations.readsAs_trimmed_text hgBody style,
    ⟨hproperties, hvariant, hgenerated, hrequired, fun name hname => ?_⟩,
    readEntries?_generatedEntries hm, fun hkeys => ?_⟩
  · rw [JsonSchema.name_of_declare hwhole, JsonSchema.name_of_declare hu,
      JsonSchema.name_of_declare hg]
  · rw [hvariant]
    exact Item.exactlyOne_of_members hproperties hgenerated hrequired hname
  · have hnames : (m.item.providers.entries.map fun (field, p) => (field, p.symbol)).map Prod.fst =
        m.item.generatedKeys := by
      rw [List.map_map]
      rfl
    have hnodup : m.item.generatedKeys.Nodup := m.item.providers.distinct
    rw [hnames, hgenerated]
    refine ⟨(List.perm_ext_iff_of_nodup hnodup ?_).mpr fun key => ?_, hnodup⟩
    · exact m.item.schema.properties.distinct.filter _
    · rw [List.mem_filter, List.contains_iff_mem]
      exact ⟨fun hkey => ⟨hkeys key hkey, hkey⟩, And.right⟩

/-- Users whose key and time of creation come from providers, in another
order than the properties, and who require a name that is no
property. -/
def users : MapperSettings where
  outPath := "./src/UserMapper.ts"
  overwrite := none
  tableName := "Users"
  hashKey := "id"
  rangeKey := none
  globalIndexes := []
  localIndexes := []
  item :=
    { outPath := "./src/User.ts"
      overwrite := none
      schema :=
        { name := "User"
          required := some ["created", "login", "ghost"]
          properties := .ofFields [("id", .ofType (.single .string)),
            ("login", .ofType (.single .string)), ("created", .ofType (.single .number))]
          additionalProperties := none }
      defaultProviders := .ofFields [("created", "./clock#now"), ("id", "uuid=uuid/v4")] }

/-- The members of the types of users, and the entries that fill in what
is generated. -/
theorem variants_complete_users :
    ∃ m f t wholeText uninitializedText partText whole uninitialized part signature entries,
      Mapper.ofSettings "UserMapper" users = .ok m ∧ m.item.providers.isEmpty = false ∧
      m.item.typeFile {} = .ok f ∧ m.item.types = .ok t ∧
      f.body = "\n\n".intercalate [wholeText, uninitializedText, partText] ∧
      t.whole.ReadsAs {} wholeText whole signature ∧
      t.uninitialized.ReadsAs {} uninitializedText uninitialized signature ∧
      t.generatedPart.ReadsAs {} partText part none ∧
      m.item.MembersAgree whole uninitialized part ∧
      part.map (·.name) = ["id", "created"] ∧
      readEntries? m.generatedEntries = some entries ∧
      (entries.map Prod.fst).Perm ["id", "created"] := by
  obtain ⟨m, hm⟩ : ∃ m, Mapper.ofSettings "UserMapper" users = .ok m := ⟨_, rfl⟩
  have hitem : m.item.schema = users.item.schema ∧ m.item.generatedKeys = ["created", "id"] ∧
      m.item.providers.isEmpty = false := by
    cases hm
    exact ⟨rfl, rfl, rfl⟩
  obtain ⟨hschema, hkeys, hp⟩ := hitem
  have hread : List.Forall₂ (JsonSchema.IsProperty ["properties"] ["created", "login", "ghost"])
      (propertyDocuments users.item.schema.properties.entries)
      [(⟨"id", none, false⟩, .union [.primitive .string]),
        (⟨"login", none, true⟩, .union [.primitive .string]),
        (⟨"created", none, true⟩, .union [.primitive .number])] :=
    .cons ⟨rfl, (ofJson_ofType _).1⟩ (.cons ⟨rfl, (ofJson_ofType _).1⟩
      (.cons ⟨rfl, (ofJson_ofType _).2.1⟩ .nil))
  have hroot := users.item.schema.toFields_isRecord.ofRoot_eq
    (users.item.schema.requiredNames_toFields []) hread
  obtain ⟨whole, hwhole⟩ :=
    JsonSchema.exists_declare hroot (show TypeScript.isIdentifier "User" = true by decide)
  have hdeclared : JsonSchema.declare m.item.document m.item.typeName = .ok whole := by
    rw [Item.document, Item.typeName, hschema]
    exact hwhole
  obtain ⟨t, ht⟩ := Item.exists_types hdeclared
  have hfile : m.item.typeFile {} = .ok _ := bind_eq_ok_iff.mpr ⟨t, ht, rfl⟩
  obtain ⟨t, wholeText, uninitializedText, partText, whole, uninitialized, part, signature, entries,
    ht, hbody, -, hw, hu, hg, hagree, hentries, hsame⟩ := variants_complete hm hp hfile
  have hpart : part.map (·.name) = ["id", "created"] := by
    rw [hagree.generated, hschema, hkeys]
    decide
  refine ⟨m, _, t, _, _, _, whole, uninitialized, part, signature, entries, hm, hp, hfile, ht,
    hbody, hw, hu, hg, hagree, hpart, hentries, ?_⟩
  rw [← hpart]
  refine (hsame fun key hkey => ?_).1
  rw [hkeys] at hkey
  rw [hschema]
  revert key
  decide

end Mapper

end TableMapper
