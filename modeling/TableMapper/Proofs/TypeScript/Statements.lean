/-
TableMapper.Proofs.TypeScript.Statements — the statements that
declarations are written as.

The text of declarations, without the white space at its ends, is what
stands above the type, and then a statement for the type and one for
each enumeration with an empty line between two (`trimmed_text`). Every
statement declares its name, and between the braces of an interface are
the pieces from which its members are read (`readsAs_trimmed_text`).
-/
import TableMapper.Proofs.TypeScript.MemberLists
import TableMapper.Text.Blank
import TableMapper.TypeScript.Declaration

namespace TableMapper

/-! ## 1. Blanks at the ends of a text -/

namespace Text

theorem joinWith_eq_intercalate (separator : String) : ∀ pieces : List String,
    joinWith separator pieces = separator.intercalate pieces
  | [] => String.intercalate_nil.symm
  | [_] => String.intercalate_singleton.symm
  | piece :: next :: rest => by
    rw [joinWith.eq_3 _ _ _ (List.cons_ne_nil _ _), joinWith_eq_intercalate,
      String.intercalate_cons_cons]

/-- The text begins with a character that is no white space. -/
def OpensVisibly (s : String) : Prop := ∃ c, s.toList.head? = some c ∧ isBlank c = false

/-- The text ends with a character that is no white space. -/
def ClosesVisibly (s : String) : Prop := ∃ c, s.toList.getLast? = some c ∧ isBlank c = false

theorem OpensVisibly.append {s : String} (h : OpensVisibly s) (t : String) :
    OpensVisibly (s ++ t) := by
  obtain ⟨c, hhead, hc⟩ := h
  refine ⟨c, ?_, hc⟩
  rw [String.toList_append, List.head?_append, hhead]
  rfl

theorem ClosesVisibly.append {t : String} (h : ClosesVisibly t) (s : String) :
    ClosesVisibly (s ++ t) := by
  obtain ⟨c, hlast, hc⟩ := h
  refine ⟨c, ?_, hc⟩
  rw [String.toList_append, List.getLast?_append, hlast]
  rfl

/-- Texts that are joined close as the last of them does. -/
theorem ClosesVisibly.intercalate (separator : String) : ∀ {pieces : List String},
    pieces ≠ [] → (∀ piece ∈ pieces, ClosesVisibly piece) →
      ClosesVisibly (separator.intercalate pieces)
  | [piece], _, h => by
    rw [String.intercalate_singleton]
    exact h piece List.mem_cons_self
  | piece :: next :: rest, _, h => by
    rw [String.intercalate_cons_cons]
    exact (ClosesVisibly.intercalate separator (List.cons_ne_nil next rest)
      fun other hother => h other (List.mem_cons_of_mem _ hother)).append _

/-- Texts that are joined open as the first of them does. -/
theorem OpensVisibly.intercalate {first : String} (h : OpensVisibly first) (separator : String) :
    ∀ rest : List String, OpensVisibly (separator.intercalate (first :: rest))
  | [] => by
    rw [String.intercalate_singleton]
    exact h
  | next :: rest => by
    rw [String.intercalate_cons_cons]
    exact (h.append _).append _

/-- The text without the white space at its beginning. -/
def trimmedFront (s : String) : String := String.ofList (s.toList.dropWhile isBlank)

/-- Of a text that ends with one line break, no more is cut off than
that and the white space at its beginning. -/
theorem trimmed_append {front behind : String} (hopens : OpensVisibly behind)
    (hcloses : ClosesVisibly behind) :
    trimmed (front ++ behind ++ "\n") = trimmedFront front ++ behind := by
  obtain ⟨first, hfirst, hfirstVisible⟩ := hopens
  obtain ⟨last, hlast, hlastVisible⟩ := hcloses
  obtain ⟨rest, hrest⟩ := List.head?_eq_some_iff.mp hfirst
  obtain ⟨before, hbefore⟩ := List.getLast?_eq_some_iff.mp hlast
  have hbehind : (behind.toList ++ ['\n']).dropWhile isBlank = behind.toList ++ ['\n'] := by
    rw [hrest, List.cons_append, List.dropWhile_cons_of_neg (by simp [hfirstVisible])]
  have hfront : (front.toList ++ (behind.toList ++ ['\n'])).dropWhile isBlank =
      front.toList.dropWhile isBlank ++ (behind.toList ++ ['\n']) := by
    rw [List.dropWhile_append, hbehind]
    split
    · next hempty => rw [List.isEmpty_iff.mp hempty, List.nil_append]
    · rfl
  have hend : trimEnd (front.toList.dropWhile isBlank ++ (behind.toList ++ ['\n'])) =
      front.toList.dropWhile isBlank ++ behind.toList := by
    have hbreak : isBlank '\n' = true := by decide
    simp [trimEnd, hbefore, hbreak, hlastVisible]
  rw [trimmed, trimmedFront, String.toList_append, String.toList_append, List.append_assoc]
  show String.ofList (trimEnd ((front.toList ++ (behind.toList ++ ['\n'])).dropWhile isBlank)) = _
  rw [hfront, hend, String.ofList_append, String.ofList_toList]

end Text

namespace TypeScript

/-! ## 2. Statements -/

/-- Pieces between braces, each on lines of its own; without any piece
the braces close at once. -/
def bracedPieces (pieces : List String) : String :=
  if pieces = [] then "\x7b\x7d" else "\x7b\n" ++ "\n".intercalate pieces ++ "\n\x7d"

/-- The statement of an interface with its pieces between braces. -/
def interfaceStatement (name : String) (pieces : List String) : String :=
  "export interface " ++ name ++ " " ++ bracedPieces pieces

/-- The statement of another name for a type. -/
def aliasStatement (name type : String) : String := "export type " ++ name ++ " = " ++ type ++ ";"

/-- The statement of an enumeration, with its members and their values
between braces, each on a line of its own. -/
def enumerationStatement (isConst : Bool) (name : String) (members : List (String × String)) :
    String :=
  (if isConst then "export const enum " else "export enum ") ++ name ++ " \x7b\n" ++
    ",\n".intercalate (members.map fun (member, value) => "  " ++ member ++ " = " ++ value) ++
    "\n\x7d"

/-- The statement declares the name. -/
inductive Declares : String → String → Prop where
  | interface (name : String) (pieces : List String) :
    Declares (interfaceStatement name pieces) name
  | alias (name type : String) : Declares (aliasStatement name type) name
  | enumeration (isConst : Bool) (name : String) (members : List (String × String)) :
    Declares (enumerationStatement isConst name members) name

/-- All statements begin with the same word. -/
theorem Declares.opensVisibly {statement name : String} :
    Declares statement name → Text.OpensVisibly statement
  | .interface _ _ => by
    have hfront : Text.OpensVisibly "export interface " := ⟨'e', rfl, by decide⟩
    exact ((hfront.append _).append _).append _
  | .alias _ _ => by
    have hfront : Text.OpensVisibly "export type " := ⟨'e', rfl, by decide⟩
    exact (((hfront.append _).append _).append _).append _
  | .enumeration isConst _ _ => by
    have hfront : Text.OpensVisibly (if isConst then "export const enum " else "export enum ") := by
      cases isConst <;> exact ⟨'e', rfl, by decide⟩
    exact (((hfront.append _).append _).append _).append _

/-- Statements end with a brace or a semicolon. -/
theorem Declares.closesVisibly {statement name : String} :
    Declares statement name → Text.ClosesVisibly statement
  | .interface _ pieces => by
    have hempty : Text.ClosesVisibly "\x7b\x7d" := ⟨'\x7d', rfl, by decide⟩
    have hbrace : Text.ClosesVisibly "\n\x7d" := ⟨'\x7d', rfl, by decide⟩
    refine Text.ClosesVisibly.append ?_ _
    unfold bracedPieces
    split
    · exact hempty
    · exact hbrace.append _
  | .alias _ _ => by
    have hend : Text.ClosesVisibly ";" := ⟨';', rfl, by decide⟩
    exact hend.append _
  | .enumeration _ _ _ => by
    have hbrace : Text.ClosesVisibly "\n\x7d" := ⟨'\x7d', rfl, by decide⟩
    exact hbrace.append _

/-! ## 3. The text of declarations -/

/-- The statement of a type declaration of the given name. -/
def TypeBody.statement (name : String) : TypeBody → String
  | .interface members further => interfaceStatement name (TypeExpr.memberList 1 members further)
  | .alias type => aliasStatement name (type.text 0)

/-- The statement of an enumeration. -/
def Enumeration.statement (style : Style) (e : Enumeration) : String :=
  enumerationStatement style.constEnums e.name e.writtenMembers

/-- The pieces of an interface between its braces. -/
theorem braced_memberList (members : List (PropertyHead × TypeExpr)) (further : Option TypeExpr) :
    TypeExpr.braced 0 (TypeExpr.membersLines 1 members ++ TypeExpr.furtherLines 1 further) =
      bracedPieces (TypeExpr.memberList 1 members further) := by
  have hclose : "\n" ++ "\x7d" = "\n\x7d" := by decide
  have hindent : Text.indent 0 = "" := rfl
  rw [← (TypeExpr.sameLines_memberList 1 further members).braced 0, TypeExpr.braced, bracedPieces,
    Text.joinWith_eq_intercalate, hindent, String.append_empty, String.append_assoc, hclose]
  simp only [List.isEmpty_iff]

theorem TypeBody.text_eq_statement (name : String) (body : TypeBody) :
    body.text name = body.statement name ++ "\n" := by
  unfold text statement interfaceStatement aliasStatement
  match body with
  | .interface members further => simp only [braced_memberList]
  | .alias type =>
    have hend : ";\n" = ";" ++ "\n" := by decide
    simp only [hend, String.append_assoc]

theorem Enumeration.text_eq_statement (style : Style) (e : Enumeration) :
    e.text style = e.statement style ++ "\n" := by
  have hend : "\n\x7d\n" = "\n\x7d" ++ "\n" := by decide
  have hkeywords : "export " ++ (if style.constEnums then "const enum " else "enum ") =
      if style.constEnums then "export const enum " else "export enum " := by
    cases style.constEnums <;> decide
  unfold text statement enumerationStatement
  simp only [Text.joinWith_eq_intercalate, hkeywords, hend, String.append_assoc]

namespace Declarations

/-- What stands above the type: the banner, without the white space that
it begins with, and the comment for the description. -/
def preamble (style : Style) (d : Declarations) : String :=
  Text.trimmedFront (String.join (style.banner.toList.map (· ++ "\n"))) ++
    String.join ((DocComment.lines? 0 d.description).map (· ++ "\n"))

/-- The statements of the type and of the enumerations. -/
def statements (style : Style) (d : Declarations) : List String :=
  d.body.statement d.name :: d.enumerations.map (Enumeration.statement style)

/-- The statements declare the names. -/
theorem declares_statements (style : Style) (d : Declarations) :
    List.Forall₂ Declares (d.statements style) d.names := by
  obtain ⟨name, description, body, enumerations⟩ := d
  refine .cons ?_ ?_
  · match body with
    | .interface members further => exact .interface name _
    | .alias type => exact .alias name _
  · rw [List.forall₂_map_left_iff, List.forall₂_map_right_iff]
    exact List.forall₂_same.mpr fun e _ => .enumeration _ e.name e.writtenMembers

end Declarations

/-- Texts that are ended, each further one behind an empty line. -/
theorem join_ended (first : String) (rest : List String) :
    first ++ "\n" ++ String.join (rest.map fun s => "\n" ++ (s ++ "\n")) =
      "\n\n".intercalate (first :: rest) ++ "\n" := by
  have hbreaks : ∀ s, "\n" ++ ("\n" ++ s) = "\n\n" ++ s := fun s => by
    rw [← String.append_assoc]
    rfl
  induction rest generalizing first with
  | nil => rw [List.map_nil, String.join_nil, String.append_empty, String.intercalate_singleton]
  | cons next rest ih =>
    have hnext := ih next
    rw [String.intercalate_cons_cons, List.map_cons, String.join_cons]
    simp only [String.append_assoc] at hnext ⊢
    rw [hnext, hbreaks]

namespace Declarations

/-- The text of declarations has line breaks at its end and white space
before the banner; the rest is what stands above the type, and the
statements with an empty line between two. -/
theorem trimmed_text (style : Style) (d : Declarations) :
    Text.trimmed (d.text style) =
      d.preamble style ++ "\n\n".intercalate (d.statements style) := by
  have henums : d.enumerations.map (fun e => "\n" ++ e.text style) =
      (d.enumerations.map (Enumeration.statement style)).map fun s => "\n" ++ (s ++ "\n") := by
    rw [List.map_map]
    exact List.map_congr_left fun e _ => by rw [Enumeration.text_eq_statement]; rfl
  have htext : d.text style = String.join (style.banner.toList.map (· ++ "\n")) ++
      (String.join ((DocComment.lines? 0 d.description).map (· ++ "\n")) ++
        "\n\n".intercalate (d.statements style)) ++ "\n" := by
    rw [text, TypeBody.text_eq_statement, henums, List.map_append, String.join_append, statements,
      String.append_assoc, join_ended]
    simp only [String.append_assoc]
  have hdeclares := d.declares_statements style
  have hcloses : Text.ClosesVisibly ("\n\n".intercalate (d.statements style)) :=
    .intercalate _ (List.cons_ne_nil _ _)
      ((List.forall₂_and_left _ _).mp (hdeclares.imp fun _ _ h => ⟨h.closesVisibly, h⟩)).1
  have hopens : Text.OpensVisibly
      (String.join ((DocComment.lines? 0 d.description).map (· ++ "\n")) ++
        "\n\n".intercalate (d.statements style)) := by
    cases d.description with
    | none =>
      rw [DocComment.lines?, List.map_nil, String.join_nil, String.empty_append]
      cases hdeclares with
      | cons hfirst _ => exact hfirst.opensVisibly.intercalate _ _
    | some description =>
      have hfront : Text.OpensVisibly (Text.indent 0 ++ "/**") := ⟨'/', rfl, by decide⟩
      rw [DocComment.lines?, DocComment.lines, List.cons_append, List.map_cons, List.map_cons,
        String.join_cons]
      exact ((hfront.append _).append _).append _
  rw [htext, Text.trimmed_append hopens (hcloses.append _), preamble, String.append_assoc]

/-- The text is that of an interface and of the enumerations below it,
and these are the members and the type of further members that are read
from the pieces of the interface. -/
def ReadsAs (style : Style) (d : Declarations) (text : String) (members : List ReadMember)
    (signature : Option String) : Prop :=
  ∃ typed further, d.body = .interface typed further ∧
    text = d.preamble style ++ "\n\n".intercalate
      (interfaceStatement d.name (TypeExpr.memberList 1 typed further) ::
        d.enumerations.map (Enumeration.statement style)) ∧
    readMembers? false (TypeExpr.memberList 1 typed further) = some (members, signature) ∧
    members = typed.map (asRead 1) ∧ signature = further.map (TypeExpr.text 1)

/-- The members of an interface are read from the text of its
declarations. -/
theorem readsAs_trimmed_text {d : Declarations} {typed : List (PropertyHead × TypeExpr)}
    {further : Option TypeExpr} (h : d.body = .interface typed further) (style : Style) :
    d.ReadsAs style (Text.trimmed (d.text style)) (typed.map (asRead 1))
      (further.map (TypeExpr.text 1)) := by
  refine ⟨typed, further, h, ?_, readMembers?_memberList 1 further typed, rfl, rfl⟩
  rw [trimmed_text, statements, h]
  rfl

end Declarations

end TypeScript

end TableMapper
