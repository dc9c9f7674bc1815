/-
TableMapper.Proofs.JsonSchema.PointerReading — reading a pointer from
its text, and following it into a document.

A pointer is written as RFC 6901 has it: a slash before each key, in
which `~1` stands for a slash and `~0` for a tilde. `ofText?_text` says
that the keys are read back, whatever characters they hold. Followed
from the root, a key leads to the field of that name, and an index to
the item at that place.
-/
import TableMapper.Json.Basic
import TableMapper.JsonSchema.Pointer
import TableMapper.Proofs.Number.Reading

namespace TableMapper

/-! ## 1. Pointers as text -/

namespace JsonSchema.Pointer

/-- The key that is written so; a tilde stands before `0` or `1`
only. -/
def unescapeKey? : List Char → Option (List Char)
  | [] => some []
  | '~' :: '0' :: cs => (unescapeKey? cs).map ('~' :: ·)
  | '~' :: '1' :: cs => (unescapeKey? cs).map ('/' :: ·)
  | c :: cs => if c = '~' then none else (unescapeKey? cs).map (c :: ·)

/-- The keys that are written between slashes. -/
def keys? : List (List Char) → Option Pointer
  | [] => some []
  | part :: parts => do return String.ofList (← unescapeKey? part) :: (← keys? parts)

/-- Reads a pointer: nothing, or keys with a slash before each. -/
def ofText? (text : String) : Option Pointer :=
  match Text.splitOn '/' text.toList with
  | [] :: parts => keys? parts
  | _ => none

theorem unescapeKey?_cons {c : Char} (hc : c ≠ '~') (cs : List Char) :
    unescapeKey? (c :: cs) = (unescapeKey? cs).map (c :: ·) := by
  rw [unescapeKey?.eq_4 _ _ (fun _ h _ => hc h) (fun _ h _ => hc h), if_neg hc]

theorem escapeKey_cons {c : Char} (htilde : c ≠ '~') (hslash : c ≠ '/') (cs : List Char) :
    escapeKey (c :: cs) = c :: escapeKey cs :=
  escapeKey.eq_4 _ _ htilde hslash

/-- An escaped key is read back. -/
theorem unescapeKey?_escapeKey (cs : List Char) : unescapeKey? (escapeKey cs) = some cs := by
  induction cs with
  | nil => rfl
  | cons c cs ih =>
    by_cases htilde : c = '~'
    · subst htilde
      rw [escapeKey, unescapeKey?, ih]
      rfl
    by_cases hslash : c = '/'
    · subst hslash
      rw [escapeKey, unescapeKey?, ih]
      rfl
    · rw [escapeKey_cons htilde hslash, unescapeKey?_cons htilde, ih]
      rfl

/-- An escaped key holds no slash. -/
theorem slash_notMem_escapeKey (cs : List Char) : '/' ∉ escapeKey cs := by
  induction cs with
  | nil => exact List.not_mem_nil
  | cons c cs ih =>
    by_cases htilde : c = '~'
    · subst htilde
      simpa [escapeKey] using ih
    by_cases hslash : c = '/'
    · subst hslash
      simpa [escapeKey] using ih
    · rw [escapeKey_cons htilde hslash]
      exact List.not_mem_cons_of_ne_of_not_mem (Ne.symm hslash) ih

theorem toList_text_cons (key : String) (rest : Pointer) :
    (text (key :: rest)).toList = '/' :: (escapeKey key.toList ++ (text rest).toList) := by
  simp [text]

/-- The parts between the slashes of a pointer are its escaped keys. -/
theorem splitOn_text : ∀ (p : Pointer) {before : List Char}, '/' ∉ before →
    Text.splitOn '/' (before ++ (text p).toList) =
      before :: p.map fun key => escapeKey key.toList
  | [], before, h => by
    rw [show (text []).toList = [] from rfl, List.append_nil]
    exact Text.splitOn_of_notMem h
  | key :: rest, before, h => by
    rw [toList_text_cons, Text.splitOn_append_cons _ h,
      splitOn_text rest (slash_notMem_escapeKey key.toList)]
    rfl

theorem keys?_map_escapeKey (p : Pointer) :
    keys? (p.map fun key => escapeKey key.toList) = some p := by
  induction p with
  | nil => rfl
  | cons key rest ih =>
    rw [List.map_cons, keys?, unescapeKey?_escapeKey, ih]
    simp

/-- A pointer is read back from its text. -/
theorem ofText?_text (p : Pointer) : ofText? p.text = some p := by
  have hparts := splitOn_text p List.not_mem_nil
  rw [List.nil_append] at hparts
  rw [ofText?, hparts]
  exact keys?_map_escapeKey p

end JsonSchema.Pointer

/-! ## 2. Following pointers -/

namespace Json

open JsonSchema (Pointer)

/-- The index that a key is, written without leading zeros. -/
def index? (key : String) : Option Nat :=
  if Number.isWholePart key.toList then Number.digits? key.toList else none

/-- What a key leads to in a document: the field of that name in an
object, and the item at that index in an array. -/
def under? (key : String) : Json → Option Json
  | .object fields => Fields.get? key fields
  | .array items => (index? key).bind (items[·]?)
  | _ => none

/-- Where a pointer leads from a document. -/
def at? : Pointer → Json → Option Json
  | [], document => some document
  | key :: rest, document => (under? key document).bind (at? rest)

theorem at?_append (p q : Pointer) (document : Json) :
    at? (p ++ q) document = (at? p document).bind (at? q) := by
  induction p generalizing document with
  | nil => rfl
  | cons key rest ih =>
    rw [List.cons_append, at?, at?, Option.bind_assoc]
    exact congrArg _ (funext ih)

/-- A pointer that goes on by one key leads on by that key. -/
theorem at?_concat {p : Pointer} {root document : Json} (h : root.at? p = some document)
    (key : String) : root.at? (p ++ [key]) = document.under? key := by
  rw [at?_append, h]
  show (document.under? key).bind (at? []) = _
  cases document.under? key <;> rfl

/-- The digits of a number are an index. -/
theorem under?_digitsOf (items : List Json) (index : Nat) :
    under? (String.ofList (Decimal.digitsOf index)) (.array items) = items[index]? := by
  have hindex : index? (String.ofList (Decimal.digitsOf index)) = some index := by
    rw [index?, String.toList_ofList, if_pos (Number.isWholePart_digitsOf index),
      Number.digits?_digitsOf]
  rw [under?, hindex]
  rfl

end Json

end TableMapper
