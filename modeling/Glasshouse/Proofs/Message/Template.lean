/-
Glasshouse.Proofs.Message.Template — filling a template is one pass over it. A template
is divided, from left to right, into placeholders and the characters at which
none begins (`Divided`); there is one such division, and it is the one that
`pieces` gives. Main statement: `render_substitutes`, for every template and all
values. Which characters are blank and which belong to a word is told by tables of
`Text` that cover all of Unicode.
-/
import Glasshouse.Template
import Glasshouse.Proofs.Url.Escapes
import Mathlib.Data.List.Basic
import Mathlib.Data.List.TakeWhile

namespace Glasshouse.Template

/-! ## Placeholders -/

/-- A placeholder as it is written: a name of word characters and points, between
blanks and double braces. -/
inductive Placeholder (name : List Char) : List Char → Prop
  | intro (before after : List Char) (open_blank : ∀ c ∈ before, Text.isBlank c = true)
      (named : name ≠ []) (chars : ∀ c ∈ name, isNameChar c = true)
      (close_blank : ∀ c ∈ after, Text.isBlank c = true) :
      Placeholder name ('{' :: '{' :: (before ++ (name ++ (after ++ ['}', '}']))))

/-- Whether a placeholder begins at the first of some characters. -/
def Begins (cs : List Char) : Prop :=
  ∃ name w rest, Placeholder name w ∧ cs = w ++ rest

/-- The code points of blanks. -/
def blankCodes : List Nat :=
  [9, 10, 11, 12, 13, 28, 29, 30, 31, 32, 0x85, 0xA0, 0x1680, 0x2000, 0x2001, 0x2002, 0x2003,
    0x2004, 0x2005, 0x2006, 0x2007, 0x2008, 0x2009, 0x200A, 0x2028, 0x2029, 0x202F, 0x205F, 0x3000]

theorem mem_blankCodes {c : Char} (h : Text.isBlank c = true) : c.toNat ∈ blankCodes := by
  simp only [Text.isBlank, Bool.or_eq_true, Bool.and_eq_true, decide_eq_true_eq, beq_iff_eq] at h
  simp only [blankCodes, List.mem_cons, List.not_mem_nil, or_false]
  omega

/-- No blank belongs to a name, so there is one way only to read a placeholder. -/
theorem isNameChar_of_isBlank {c : Char} (h : Text.isBlank c = true) : isNameChar c = false := by
  have all : ∀ n ∈ blankCodes, isNameChar (Char.ofNat n) = false := by decide +kernel
  simpa using all c.toNat (mem_blankCodes h)

theorem readSlot?_eq_some {cs name rest : List Char} :
    readSlot? cs = some (name, rest) ↔ ∃ w, Placeholder name w ∧ '{' :: '{' :: cs = w ++ rest := by
  constructor
  · intro h
    unfold readSlot? at h
    dsimp only at h
    split at h
    · rename_i r hr
      split at h
      · cases h
      · rename_i hne
        cases h
        refine ⟨_, .intro (cs.takeWhile Text.isBlank)
          (((cs.dropWhile Text.isBlank).dropWhile isNameChar).takeWhile Text.isBlank)
          (fun c hc => List.mem_takeWhile_imp hc) (by simpa using hne)
          (fun c hc => List.mem_takeWhile_imp hc) (fun c hc => List.mem_takeWhile_imp hc), ?_⟩
        simp only [List.cons_append, List.append_assoc, List.nil_append, ← hr,
          List.takeWhile_append_dropWhile]
    · cases h
  · rintro ⟨w, ⟨before, after, hbefore, hname, hchars, hafter⟩, heq⟩
    simp only [List.cons_append, List.append_assoc, List.nil_append, List.cons.injEq,
      true_and] at heq
    subst heq
    obtain ⟨c, name, rfl⟩ := List.exists_cons_of_ne_nil hname
    have hc := hchars c (List.mem_cons_self ..)
    have behind : ∀ d, (after ++ '}' :: '}' :: rest).head? = some d → isNameChar d = false := by
      intro d hd
      cases after with
      | nil =>
        cases hd
        decide
      | cons _ after =>
        cases hd
        exact isNameChar_of_isBlank (hafter d (List.mem_cons_self ..))
    have blanks : (before ++ (c :: name ++ (after ++ '}' :: '}' :: rest))).dropWhile Text.isBlank
        = c :: name ++ (after ++ '}' :: '}' :: rest) :=
      (Url.while_append hbefore (by
        rintro d ⟨⟩
        refine Bool.eq_false_iff.2 fun hd => ?_
        rw [isNameChar_of_isBlank hd] at hc
        cases hc)).2
    obtain ⟨names, left⟩ := Url.while_append hchars behind
    have closing : (after ++ '}' :: '}' :: rest).dropWhile Text.isBlank = '}' :: '}' :: rest :=
      (Url.while_append hafter (by rintro d ⟨⟩; decide)).2
    unfold readSlot?
    simp only [blanks, names, left, closing, List.isEmpty_cons, Bool.false_eq_true, if_false]

theorem Placeholder.length_pos {name w : List Char} (h : Placeholder name w) : 0 < w.length := by
  cases h
  exact Nat.succ_pos _

/-! ## Division into pieces -/

/-- A text divided into placeholders and single characters, from left to right: a
placeholder is taken where one begins, and a character only where none does. -/
inductive Divided : List Char → List Piece → Prop
  | nil : Divided [] []
  | slot {name w rest : List Char} {ps : List Piece} (here : Placeholder name w)
      (further : Divided rest ps) : Divided (w ++ rest) (.slot w (String.ofList name) :: ps)
  | char {c : Char} {rest : List Char} {ps : List Piece} (none : ¬ Begins (c :: rest))
      (further : Divided rest ps) : Divided (c :: rest) (.char c :: ps)

theorem pieces_slot {name w : List Char} (h : Placeholder name w) (rest : List Char) :
    pieces (w ++ rest) = .slot w (String.ofList name) :: pieces rest := by
  obtain ⟨r, hr⟩ : ∃ r, w ++ rest = '{' :: '{' :: r := by
    cases h
    exact ⟨_, rfl⟩
  have hread := readSlot?_eq_some.2 ⟨w, h, hr.symm⟩
  have hlength : r.length + 2 - rest.length = w.length := by
    have := congrArg List.length hr
    simp only [List.length_append, List.length_cons] at this
    omega
  have htake : ('{' :: '{' :: r).take (r.length + 2 - rest.length) = w := by
    rw [hlength, ← hr, List.take_left']
    rfl
  rw [hr, pieces]
  split
  · rename_i name' rest' hread'
    rw [hread] at hread'
    cases hread'
    rw [htake]
  · rename_i hread'
    rw [hread] at hread'
    cases hread'

theorem pieces_char {c : Char} {rest : List Char} (h : ¬ Begins (c :: rest)) :
    pieces (c :: rest) = .char c :: pieces rest := by
  rw [pieces.eq_def]
  split
  · rename_i heq
    cases heq
  · rename_i r heq
    cases heq
    split
    · rename_i name tail hread
      obtain ⟨w, hw, hcs⟩ := readSlot?_eq_some.1 hread
      exact absurd ⟨name, w, tail, hw, hcs⟩ h
    · rfl
  · rename_i heq
    cases heq
    rfl

/-- A text has one division. -/
theorem divided_iff {cs : List Char} {ps : List Piece} : Divided cs ps ↔ ps = pieces cs := by
  constructor
  · intro h
    induction h with
    | nil => rw [pieces]
    | slot here _ ih => rw [pieces_slot here, ih]
    | char none _ ih => rw [pieces_char none, ih]
  · rintro rfl
    induction hn : cs.length using Nat.strongRecOn generalizing cs with
    | _ n ih =>
      by_cases h : Begins cs
      · obtain ⟨name, w, rest, hw, rfl⟩ := h
        rw [pieces_slot hw]
        refine .slot hw (ih _ ?_ rfl)
        rw [← hn, List.length_append]
        exact Nat.lt_add_of_pos_left hw.length_pos
      · cases cs with
        | nil =>
          rw [pieces]
          exact .nil
        | cons c rest =>
          rw [pieces_char h]
          exact .char h (ih _ (hn ▸ Nat.lt_succ_self _) rfl)

/-- The pieces of a text make up the text. -/
theorem written_pieces (cs : List Char) : (pieces cs).flatMap Piece.written = cs := by
  have h := divided_iff.2 (rfl : pieces cs = pieces cs)
  generalize pieces cs = ps at h
  induction h with
  | nil => rfl
  | slot _ _ ih => rw [List.flatMap_cons, ih, Piece.written]
  | char _ _ ih => rw [List.flatMap_cons, ih, Piece.written, List.singleton_append]

/-! ## Filling -/

/-- The text that a name is bound to: none if it has no variable, or one that is `null`. -/
def bound? (values : Fields) (name : String) : Option String :=
  match Fields.get? name values with
  | none | some .null => none
  | some d => some d.text

/-- What stands for a piece: the text that its name is bound to, and else the piece as it
is written. -/
def Piece.substitute (values : Fields) : Piece → List Char
  | char c => [c]
  | slot w name => ((bound? values name).map String.toList).getD w

theorem Piece.fill_eq (values : Fields) (p : Piece) : p.fill values = p.substitute values := by
  cases p with
  | char c => rfl
  | slot w name =>
    show (match Fields.get? name values with
      | none | some .null => w
      | some d => d.text.toList) = ((bound? values name).map String.toList).getD w
    unfold bound?
    split <;> rfl

theorem render_eq (template : String) (values : Fields) : render template values
    = String.ofList ((pieces template.toList).flatMap (Piece.substitute values)) := by
  unfold render
  rw [List.flatMap_congr fun p _ => p.fill_eq values]

/-- A piece of which nothing is bound stays as it is written. -/
theorem Piece.substitute_unbound {values : Fields} {p : Piece}
    (h : ∀ w name, p = .slot w name → bound? values name = none) :
    p.substitute values = p.written := by
  cases p with
  | char c => rfl
  | slot w name =>
    rw [substitute, h w name rfl]
    rfl

/-- A template has one division into placeholders, taken from left to right where they
begin, and other characters. Filling it puts the text of each bound name in the place of
its placeholder and changes nothing else; what is put in is not divided again. The result
depends on the names of these placeholders only, and where none of them is bound it is the
template. -/
theorem render_substitutes (template : String) (values : Fields) :
    ∃ ps, (∀ qs, Divided template.toList qs ↔ qs = ps)
      ∧ render template values = String.ofList (ps.flatMap (Piece.substitute values))
      ∧ (∀ values', (∀ w name, .slot w name ∈ ps → bound? values' name = bound? values name) →
        render template values' = render template values)
      ∧ ((∀ w name, .slot w name ∈ ps → bound? values name = none) →
        render template values = template) := by
  refine ⟨pieces template.toList, fun qs => divided_iff, render_eq template values, ?_, ?_⟩
  · intro values' same
    rw [render_eq, render_eq]
    refine congrArg String.ofList (List.flatMap_congr fun p hp => ?_)
    cases p with
    | char c => rfl
    | slot w name => rw [Piece.substitute, Piece.substitute, same w name hp]
  · intro unbound
    have written : ∀ p ∈ pieces template.toList, p.substitute values = p.written :=
      fun p hp => Piece.substitute_unbound fun w name h => unbound w name (h ▸ hp)
    rw [render_eq, List.flatMap_congr written, written_pieces, String.ofList_toList]

/-- A text in double braces that is put in is not read as a placeholder, and of three
braces the first is a character. -/
theorem render_substitutes_braces :
    let values : Fields := [(.str "a", .str "\x7b\x7bb\x7d\x7d"), (.str "b", .int 1)]
    render "\x7b\x7b\x7ba\x7d\x7d \x7b\x7b b \x7d\x7d" values = "\x7b\x7b\x7bb\x7d\x7d 1" := by
  intro values
  obtain ⟨ps, divided, rendered, -, -⟩ :=
    render_substitutes "\x7b\x7b\x7ba\x7d\x7d \x7b\x7b b \x7d\x7d" values
  obtain rfl := (divided _).1 (divided_iff.2 rfl)
  rw [rendered]
  decide +kernel

end Glasshouse.Template
