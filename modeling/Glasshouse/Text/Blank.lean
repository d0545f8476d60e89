/-
Glasshouse.Text.Blank — the blank characters of all scripts, and texts with
the blanks at their ends removed. `trim` keeps the middle of a text as it is:
`stripBy_of_ends` says so.
-/

namespace Glasshouse.Text

/-- A blank: a character that separates words in some script, the four
information separators included. -/
def isBlank (c : Char) : Bool :=
  let n := c.toNat
  (9 ≤ n && n ≤ 13) || (28 ≤ n && n ≤ 32) || n == 0x85 || n == 0xA0 || n == 0x1680 ||
    (0x2000 ≤ n && n ≤ 0x200A) || n == 0x2028 || n == 0x2029 || n == 0x202F || n == 0x205F ||
    n == 0x3000

/-- A white space character in the narrower sense: the information separators
are not counted. -/
def isSpace (c : Char) : Bool :=
  isBlank c && !(28 ≤ c.toNat && c.toNat ≤ 31)

/-- A list of characters without the ones at either end that satisfy `p`. -/
def stripBy (p : Char → Bool) (cs : List Char) : List Char :=
  ((cs.dropWhile p).reverse.dropWhile p).reverse

/-- A text without the blanks at its ends. -/
def trim (s : String) : String :=
  String.ofList (stripBy isBlank s.toList)

/-- Nothing is removed where neither end satisfies the test. -/
theorem stripBy_of_ends {p : Char → Bool} {cs : List Char}
    (hh : ∀ c, cs.head? = some c → p c = false) (hl : ∀ c, cs.getLast? = some c → p c = false) :
    stripBy p cs = cs := by
  have drop_self : ∀ l : List Char, (∀ c, l.head? = some c → p c = false) → l.dropWhile p = l := by
    intro l hl
    cases l with
    | nil => rfl
    | cons a r => simp [List.dropWhile, hl a rfl]
  rw [stripBy, drop_self cs hh, drop_self, List.reverse_reverse]
  intro c hc
  exact hl c (by rwa [List.head?_reverse] at hc)

end Glasshouse.Text
