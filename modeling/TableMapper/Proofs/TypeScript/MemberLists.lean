/-
TableMapper.Proofs.TypeScript.MemberLists — the members of an object
type, as they are written and as they are read.

An object type is written as a list of pieces, a comment and a member
for each of its members and one more for all further members, of which
the empty ones are left out (`memberList`). `readMembers?` reads such a
list piece by piece, and gets back every member with its name, whether it
is optional, whether a comment goes before it and the text of its type
(`readMembers?_memberList`): nothing else is in the list, and of what is
left out nothing is missing.
-/
import TableMapper.Proofs.TypeScript.LiteralGrammar
import TableMapper.TypeScript.TypeExpr

namespace TableMapper.TypeScript

/-! ## 1. Pieces -/

namespace TypeExpr

/-- The comment for a description; without a description it is empty. -/
def commentPiece (level : Nat) (description : Option String) : String :=
  Text.joinWith "\n" (DocComment.lines? level description)

/-- A member, given the text of its type. -/
def memberPiece (level : Nat) (head : PropertyHead) (type : String) : String :=
  Text.indent level ++ propertyKey head.name ++ (if head.required then "" else "?")
    ++ ": " ++ type ++ ";"

/-- The pieces of an object type whose members stand at a level. -/
def pieces (level : Nat) (members : List (PropertyHead × TypeExpr)) (further : Option TypeExpr) :
    List String :=
  members.flatMap (fun (head, type) =>
      [commentPiece level head.description, memberPiece level head (text level type)])
    ++ (further.map fun type => furtherLine level (text level type)).toList

/-- The pieces that are written: all but those that are empty. -/
def memberList (level : Nat) (members : List (PropertyHead × TypeExpr))
    (further : Option TypeExpr) : List String :=
  (pieces level members further).filter (· ≠ "")

/-! ## 2. What is left out -/

theorem memberPiece_ne_empty (level : Nat) (head : PropertyHead) (type : String) :
    memberPiece level head type ≠ "" := by
  intro heq
  exact absurd (String.append_eq_empty_iff.mp heq).2 (by decide)

theorem furtherLine_ne_empty (level : Nat) (type : String) : furtherLine level type ≠ "" := by
  intro heq
  exact absurd (String.append_eq_empty_iff.mp heq).2 (by decide)

/-- How a comment begins. -/
theorem commentPiece_front (level : Nat) (description : String) :
    ∃ rest, (commentPiece level (some description)).toList =
      (Text.indent level).toList ++ '/' :: '*' :: '*' :: rest := by
  obtain ⟨next, others, hlines⟩ : ∃ next others, DocComment.lines level description =
      (Text.indent level ++ "/**") :: next :: others := by
    rw [DocComment.lines, List.cons_append, List.map_cons]
    cases Text.lines description with
    | nil => exact ⟨_, _, rfl⟩
    | cons line rest => exact ⟨_, _, rfl⟩
  refine ⟨"\n".toList ++ (Text.joinWith "\n" (next :: others)).toList, ?_⟩
  rw [commentPiece, DocComment.lines?, hlines, Text.toList_joinWith_cons, String.toList_append,
    List.append_assoc]
  rfl

theorem commentPiece_ne_empty (level : Nat) (description : String) :
    commentPiece level (some description) ≠ "" := by
  intro heq
  obtain ⟨rest, hfront⟩ := commentPiece_front level description
  rw [heq] at hfront
  simp at hfront

/-- The comment before a member, if there is one. -/
def commentBefore (level : Nat) (head : PropertyHead) : List String :=
  head.description.toList.map fun description => commentPiece level (some description)

/-- Only comments of members without a description are left out. -/
theorem memberList_cons (level : Nat) (head : PropertyHead) (type : TypeExpr)
    (rest : List (PropertyHead × TypeExpr)) (further : Option TypeExpr) :
    memberList level ((head, type) :: rest) further =
      commentBefore level head ++ memberPiece level head (text level type) ::
        memberList level rest further := by
  have hcomment : [commentPiece level head.description].filter (· ≠ "") =
      commentBefore level head := by
    unfold commentBefore
    cases head.description with
    | none => rfl
    | some description =>
      rw [List.filter_cons_of_pos (by simpa using commentPiece_ne_empty level description)]
      rfl
  have hpieces : pieces level ((head, type) :: rest) further =
      [commentPiece level head.description] ++
        memberPiece level head (text level type) :: pieces level rest further := rfl
  rw [memberList, hpieces, List.filter_append, hcomment, List.filter_cons_of_pos]
  · rfl
  · exact decide_eq_true (memberPiece_ne_empty level head (text level type))

theorem memberList_nil (level : Nat) (further : Option TypeExpr) :
    memberList level [] further = furtherLines level further := by
  cases further with
  | none => rfl
  | some type =>
    have hpieces : pieces level [] (some type) = [furtherLine level (text level type)] := rfl
    rw [memberList, hpieces, List.filter_cons_of_pos]
    · rfl
    · exact decide_eq_true (furtherLine_ne_empty level (text level type))

/-! ## 3. The text of an object type -/

theorem joinWith_append {separator : String} : ∀ {pieces others : List String}, pieces ≠ [] →
    others ≠ [] → Text.joinWith separator (pieces ++ others) =
      Text.joinWith separator pieces ++ separator ++ Text.joinWith separator others
  | [piece], others, _, h => by
    rw [List.singleton_append, Text.joinWith.eq_3 _ _ _ h]
    rfl
  | piece :: next :: pieces, others, _, h => by
    have ih : Text.joinWith separator (next :: pieces ++ others) = _ :=
      joinWith_append (List.cons_ne_nil next pieces) h
    rw [List.cons_append, Text.joinWith.eq_3 _ _ _ (by simp), ih,
      Text.joinWith.eq_3 _ _ _ (List.cons_ne_nil _ _)]
    simp only [String.append_assoc]

/-- Two lists of pieces that are the same text between line breaks. -/
structure SameLines (pieces others : List String) : Prop where
  empty : pieces = [] ↔ others = []
  joined : Text.joinWith "\n" pieces = Text.joinWith "\n" others

theorem SameLines.refl (pieces : List String) : SameLines pieces pieces := ⟨Iff.rfl, rfl⟩

theorem SameLines.append {first second first' second' : List String}
    (h : SameLines first first') (h' : SameLines second second') :
    SameLines (first ++ second) (first' ++ second') := by
  refine ⟨by rw [List.append_eq_nil_iff, List.append_eq_nil_iff, h.empty, h'.empty], ?_⟩
  by_cases hfirst : first = []
  · rw [hfirst, h.empty.mp hfirst]
    exact h'.joined
  · by_cases hsecond : second = []
    · rw [hsecond, h'.empty.mp hsecond, List.append_nil, List.append_nil]
      exact h.joined
    · rw [joinWith_append hfirst hsecond, joinWith_append (mt h.empty.mpr hfirst)
        (mt h'.empty.mpr hsecond), h.joined, h'.joined]

theorem SameLines.braced {pieces others : List String} (h : SameLines pieces others)
    (level : Nat) : TypeExpr.braced level pieces = TypeExpr.braced level others := by
  have hempty : pieces.isEmpty = others.isEmpty := by
    rw [Bool.eq_iff_iff, List.isEmpty_iff, List.isEmpty_iff, h.empty]
  rw [TypeExpr.braced, TypeExpr.braced, hempty, h.joined]

theorem sameLines_commentBefore (level : Nat) (head : PropertyHead) :
    SameLines (commentBefore level head) (DocComment.lines? level head.description) := by
  unfold commentBefore
  cases head.description with
  | none => exact .refl []
  | some description =>
    refine ⟨iff_of_false (by simp) (by simp [DocComment.lines?, DocComment.lines]), ?_⟩
    rw [Option.toList_some, List.map_singleton, Text.joinWith.eq_2, commentPiece]

/-- The list of members is the lines of an object type. -/
theorem sameLines_memberList (level : Nat) (further : Option TypeExpr)
    (members : List (PropertyHead × TypeExpr)) : SameLines (memberList level members further)
      (membersLines level members ++ furtherLines level further) := by
  induction members with
  | nil =>
    rw [memberList_nil]
    exact .refl _
  | cons member rest ih =>
    obtain ⟨head, type⟩ := member
    rw [memberList_cons, membersLines, List.append_assoc, memberLines, List.append_assoc]
    exact (sameLines_commentBefore level head).append
      ((SameLines.refl [memberPiece level head (text level type)]).append ih)

/-- The text of an object type is its list of members between braces. -/
theorem text_object (level : Nat) (members : List (PropertyHead × TypeExpr))
    (further : Option TypeExpr) : text level (.object members further) =
      braced level (memberList (level + 1) members further) :=
  ((sameLines_memberList (level + 1) further members).braced level).symm

end TypeExpr

/-! ## 4. Reading -/

open TypeExpr (commentPiece commentPiece_front commentBefore memberPiece memberList
  memberList_cons memberList_nil furtherLine)

/-- The text of a type between a colon and the semicolon at the end. -/
def typeBehind? : List Char → Option String
  | ':' :: ' ' :: cs => if cs.getLast? = some ';' then some (String.ofList cs.dropLast) else none
  | _ => none

theorem typeBehind?_colon (type : String) :
    typeBehind? (':' :: ' ' :: (type.toList ++ [';'])) = some type := by
  rw [typeBehind?, List.getLast?_concat, if_pos rfl, List.dropLast_concat, String.ofList_toList]

/-- What a piece says. -/
inductive Piece where
  | comment
  | member (name : String) (optional : Bool) (type : String)
  | further (type : String)

/-- Reads what stands behind the key of a member. -/
def memberBehind? (name : String) : List Char → Option Piece
  | '?' :: rest => (typeBehind? rest).map (.member name true)
  | rest => (typeBehind? rest).map (.member name false)

/-- Reads what stands behind an opening bracket. -/
def furtherBehind? (cs : List Char) : Option Piece :=
  match Text.splitAtFirst? ']' cs with
  | some (key, rest) =>
    if key = "k: string".toList then (typeBehind? rest).map .further else none
  | none => none

/-- Reads a piece: a comment begins with a slash, the type of all
further members with a bracket, and a member with its key. -/
def Piece.read? (piece : String) : Option Piece :=
  match Literal.skipSpace piece.toList with
  | '/' :: cs => if "**".toList.isPrefixOf cs then some .comment else none
  | '[' :: cs => furtherBehind? cs
  | cs => (Literal.key? cs).bind fun (name, rest) => memberBehind? name rest

/-- A member of an object type, as it is read. -/
structure ReadMember where
  name : String
  optional : Bool
  documented : Bool
  type : String

/-- Reads a list of pieces; a comment may stand before each member, and
all further members come last. Whether there is a comment before the
first piece is known. -/
def readMembers? (documented : Bool) : List String → Option (List ReadMember × Option String)
  | [] => if documented then none else some ([], none)
  | piece :: rest => match Piece.read? piece with
    | none => none
    | some .comment => if documented then none else readMembers? true rest
    | some (.member name optional type) =>
      (readMembers? false rest).map fun (others, further) =>
        (⟨name, optional, documented, type⟩ :: others, further)
    | some (.further type) =>
      if documented || !rest.isEmpty then none else some ([], some type)

theorem read?_commentPiece (level : Nat) (description : String) :
    Piece.read? (commentPiece level (some description)) = some .comment := by
  obtain ⟨rest, hfront⟩ := commentPiece_front level description
  rw [Piece.read?, hfront, Literal.skipSpace_indent, Literal.skipSpace_cons rfl]
  rfl

theorem read?_furtherLine (level : Nat) (type : String) :
    Piece.read? (furtherLine level type) = some (.further type) := by
  have htext : (furtherLine level type).toList = (Text.indent level).toList ++
      '[' :: ("k: string".toList ++ ']' :: ':' :: ' ' :: (type.toList ++ [';'])) := by
    simp [furtherLine]
  have hsplit : Text.splitAtFirst? ']' ("k: string".toList ++ ']' :: ':' :: ' ' ::
      (type.toList ++ [';'])) = some ("k: string".toList, ':' :: ' ' :: (type.toList ++ [';'])) :=
    Text.splitAtFirst?_eq_some_iff.mpr ⟨rfl, by decide⟩
  rw [Piece.read?, htext, Literal.skipSpace_indent, Literal.skipSpace_cons rfl]
  simp only [furtherBehind?, hsplit, typeBehind?_colon, if_true, Option.map_some]

/-- A key begins with neither of the marks that other pieces begin
with. -/
theorem key?_mark {mark : Char} (h : mark = '/' ∨ mark = '[') (cs : List Char) :
    Literal.key? (mark :: cs) = none := by
  rcases h with rfl | rfl
  · rfl
  · rfl

theorem read?_of_key? {piece name : String} {rest : List Char}
    (h : Literal.key? (Literal.skipSpace piece.toList) = some (name, rest)) :
    Piece.read? piece = memberBehind? name rest := by
  unfold Piece.read?
  split
  · next heq =>
    rw [heq, key?_mark (.inl rfl)] at h
    cases h
  · next heq =>
    rw [heq, key?_mark (.inr rfl)] at h
    cases h
  · rw [h]
    rfl

theorem read?_memberPiece (level : Nat) (head : PropertyHead) (type : String) :
    Piece.read? (memberPiece level head type) = some (.member head.name (!head.required) type) := by
  have htext : (memberPiece level head type).toList = (Text.indent level).toList ++
      ((propertyKey head.name).toList ++ ((if head.required then "" else "?").toList ++
        ':' :: ' ' :: (type.toList ++ [';']))) := by
    simp [memberPiece]
  have hkey : Literal.key? (Literal.skipSpace (memberPiece level head type).toList) =
      some (head.name, (if head.required then "" else "?").toList ++
        ':' :: ' ' :: (type.toList ++ [';'])) := by
    rw [htext, Literal.skipSpace_indent]
    refine Literal.key?_propertyKey head.name ?_
    cases head.required <;> exact fun c hc => by cases hc; rfl
  rw [read?_of_key? hkey]
  cases head.required with
  | true => exact congrArg (Option.map _) (typeBehind?_colon type)
  | false => exact congrArg (Option.map _) (typeBehind?_colon type)

/-- What is read of a member. -/
def asRead (level : Nat) (member : PropertyHead × TypeExpr) : ReadMember :=
  ⟨member.1.name, !member.1.required, member.1.description.isSome, member.2.text level⟩

/-- A comment counts for the member behind it. -/
theorem readMembers?_comment (level : Nat) (description : String) (rest : List String) :
    readMembers? false (commentPiece level (some description) :: rest) =
      readMembers? true rest := by
  rw [readMembers?, read?_commentPiece]
  rfl

/-- Of a list of members, all members are read, and nothing else. -/
theorem readMembers?_memberList (level : Nat) (further : Option TypeExpr)
    (members : List (PropertyHead × TypeExpr)) :
    readMembers? false (memberList level members further) =
      some (members.map (asRead level), further.map (TypeExpr.text level)) := by
  induction members with
  | nil =>
    rw [memberList_nil]
    cases further with
    | none => rfl
    | some type =>
      rw [TypeExpr.furtherLines, readMembers?, read?_furtherLine]
      rfl
  | cons member rest ih =>
    obtain ⟨head, type⟩ := member
    have hmember : ∀ documented, readMembers? documented
        (memberPiece level head (type.text level) :: memberList level rest further) =
          some (⟨head.name, !head.required, documented, type.text level⟩ ::
            rest.map (asRead level), further.map (TypeExpr.text level)) := by
      intro documented
      rw [readMembers?, read?_memberPiece]
      simp only [ih, Option.map_some]
    rw [memberList_cons, commentBefore, List.map_cons, asRead]
    cases hdescription : head.description with
    | none =>
      rw [Option.toList_none, List.map_nil, List.nil_append, hmember]
      rfl
    | some description =>
      rw [Option.toList_some, List.map_singleton, List.singleton_append, readMembers?_comment,
        hmember]
      rfl

end TableMapper.TypeScript
