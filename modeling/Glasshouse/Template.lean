/-
Glasshouse.Template — texts with placeholders `{{ name }}`. One pass from left
to right replaces each placeholder by the text of its variable; one whose
variable is unknown or `null` stays as it is written, and what is put in is
not looked at again.
-/
import Glasshouse.Doc.Text
import Glasshouse.Text.Blank
import Glasshouse.Text.Word

namespace Glasshouse.Template

/-- A character of a variable's name. -/
def isNameChar (c : Char) : Bool :=
  Text.isWordChar c || c == '.'

/-- What follows the opening braces: blanks, a name, blanks and closing braces.
Gives the name and what comes after the placeholder. -/
def readSlot? (cs : List Char) : Option (List Char × List Char) :=
  let r := cs.dropWhile Text.isBlank
  let name := r.takeWhile isNameChar
  match (r.dropWhile isNameChar).dropWhile Text.isBlank with
  | '}' :: '}' :: rest => if name.isEmpty then none else some (name, rest)
  | _ => none

theorem length_dropWhile_le {α : Type} (p : α → Bool) (l : List α) :
    (l.dropWhile p).length ≤ l.length := by
  induction l with
  | nil => simp
  | cons a l ih =>
    by_cases h : p a
    · simp only [List.dropWhile_cons, h, if_true, List.length_cons]; omega
    · simp [h]

theorem length_of_readSlot? {cs name rest : List Char} (h : readSlot? cs = some (name, rest)) :
    rest.length < cs.length := by
  simp only [readSlot?] at h
  split at h
  · next r hr =>
    split at h
    · simp at h
    · simp only [Option.some.injEq, Prod.mk.injEq] at h
      obtain ⟨-, rfl⟩ := h
      have h1 := length_dropWhile_le Text.isBlank cs
      have h2 := length_dropWhile_le isNameChar (cs.dropWhile Text.isBlank)
      have h3 := length_dropWhile_le Text.isBlank
        ((cs.dropWhile Text.isBlank).dropWhile isNameChar)
      rw [hr] at h3
      simp only [List.length_cons] at h3
      omega
  · simp at h

/-- A part of a template. -/
inductive Piece where
  | char (c : Char)
  /-- A placeholder as it is written, and the name in it. -/
  | slot (written : List Char) (name : String)

/-- The pieces of a template, from left to right. -/
def pieces (cs : List Char) : List Piece :=
  match cs with
  | [] => []
  | '{' :: '{' :: r =>
    match h : readSlot? r with
    | some (name, rest) =>
      have := length_of_readSlot? h
      .slot (('{' :: '{' :: r).take (r.length + 2 - rest.length)) (String.ofList name)
        :: pieces rest
    | none => .char '{' :: pieces ('{' :: r)
  | c :: r => .char c :: pieces r
termination_by cs.length
decreasing_by all_goals simp_wf <;> omega

/-- A piece as it is written. -/
def Piece.written : Piece → List Char
  | char c => [c]
  | slot w _ => w

/-- A piece with its variable put in. -/
def Piece.fill (values : Fields) : Piece → List Char
  | char c => [c]
  | slot w name =>
    match Fields.get? name values with
    | none | some .null => w
    | some d => d.text.toList

/-- A template with its variables put in. -/
def render (template : String) (values : Fields) : String :=
  String.ofList ((pieces template.toList).flatMap (Piece.fill values))

end Glasshouse.Template
