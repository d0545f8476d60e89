/-
Glasshouse.Proofs.Url.Escapes — what escaping leaves of the parts of an address:
printable ASCII without the characters that the part escapes. Escaping again
changes nothing, and a text without escapes is read as itself. Main
statements: `encode_encode`, `decode_of_ascii`.
-/
import Glasshouse.Url.Percent
import Mathlib.Data.Bool.AllAny

namespace Glasshouse.Url

/-! ## Escaped texts -/

/-- Characters that a part of an address holds as they are. -/
def Area.Keeps (a : Area) (cs : List Char) : Prop :=
  ∀ c ∈ cs, a.mustEscape c = false

theorem digits_of_escapeByte (b : UInt8) :
    ∀ c ∈ escapeByte b, c = '%' ∨ c ∈ "0123456789ABCDEF".toList := by
  have all : ∀ n < 256, (escapeByte (UInt8.ofNat n)).all fun c =>
      c = '%' ∨ c ∈ "0123456789ABCDEF".toList := by
    decide +kernel
  simpa using all b.toNat b.toNat_lt

theorem mustEscape_of_escape (a : Area) {c : Char}
    (h : c = '%' ∨ c ∈ "0123456789ABCDEF".toList) : a.mustEscape c = false := by
  have all : ∀ c ∈ '%' :: "0123456789ABCDEF".toList, a.mustEscape c = false := by
    cases a <;> exact List.all_iff_forall_prop.1 (by decide +kernel)
  exact all c (by simpa using h)

/-- What was escaped holds nothing more to escape. -/
theorem keeps_encode (a : Area) (cs : List Char) : a.Keeps (encode a cs) := by
  intro c hc
  obtain ⟨d, -, hd⟩ := List.mem_flatMap.1 hc
  unfold encodeChar at hd
  split at hd
  · obtain ⟨b, -, hb⟩ := List.mem_flatMap.1 hd
    exact mustEscape_of_escape a (digits_of_escapeByte b c hb)
  · rename_i hkeep
    rw [List.mem_singleton] at hd
    rw [hd]
    exact Bool.eq_false_iff.2 hkeep

theorem encode_of_keeps {a : Area} {cs : List Char} (h : a.Keeps cs) : encode a cs = cs :=
  encode_eq_self h

/-- Escaping twice is escaping once. -/
theorem encode_encode (a : Area) (cs : List Char) : encode a (encode a cs) = encode a cs :=
  encode_of_keeps (keeps_encode a cs)

/-- What a part holds as it is, is printable ASCII and no blank. -/
theorem Area.Keeps.printable {a : Area} {cs : List Char} (h : a.Keeps cs) :
    ∀ c ∈ cs, 0x20 < c.toNat ∧ c.toNat < 0x7F := by
  intro c hc
  have hm := h c hc
  simp only [mustEscape, Bool.or_eq_false_iff, decide_eq_false_iff_not, Nat.not_lt, Nat.not_le] at hm
  refine ⟨Nat.lt_of_le_of_ne hm.1.1 ?_, hm.1.2⟩
  intro hblank
  have hc : c = ' ' := Char.ext (UInt32.toNat_inj.1 hblank.symm)
  rw [hc] at hm
  cases a <;> exact absurd hm.2 (by decide)

theorem Area.Keeps.not_mem {a : Area} {cs : List Char} (h : a.Keeps cs) {c : Char}
    (hc : a.mustEscape c = true) : c ∉ cs := by
  intro hmem
  rw [h c hmem] at hc
  cases hc

/-! ## Texts without escapes -/

theorem utf8_singleton {c : Char} (h : c.toNat < 0x80) :
    (String.singleton c).toUTF8.toList = String.utf8EncodeChar c := by
  have all : ∀ n < 0x80, (String.singleton (Char.ofNat n)).toUTF8.toList
      = String.utf8EncodeChar (Char.ofNat n) := by
    decide +kernel
  simpa using all c.toNat h

/-- A text of ASCII characters without escapes is read as it is. -/
theorem decode_of_ascii {cs : List Char} (hascii : ∀ c ∈ cs, c.toNat < 0x80) (hplain : '%' ∉ cs) :
    decode? cs = some cs := by
  have hbytes : decodeBytes cs = cs.flatMap String.utf8EncodeChar := by
    induction cs with
    | nil =>
      rw [decodeBytes]
      rfl
    | cons c cs ih =>
      have hc : c ≠ '%' := fun h => hplain (by simp [h])
      have hrest := ih (fun d hd => hascii d (by simp [hd])) fun h => hplain (by simp [h])
      have hstep : decodeBytes (c :: cs)
          = (String.singleton c).toUTF8.toList ++ decodeBytes cs := by
        rw [decodeBytes]
        exact fun a b r h _ => hc h
      rw [hstep, hrest, utf8_singleton (hascii c (by simp)), List.flatMap_cons]
  have hutf8 : (⟨(decodeBytes cs).toArray⟩ : ByteArray) = cs.utf8Encode := by
    refine ByteArray.ext ?_
    rw [hbytes, List.utf8Encode, List.data_toByteArray]
  unfold decode? String.fromUTF8?
  rw [hutf8, dif_pos ByteArray.isValidUTF8_utf8Encode, Option.map_some]
  exact congrArg some String.toList_ofList

/-- A text of ASCII characters has as many bytes as characters. -/
theorem utf8ByteSize_of_ascii {s : String} (h : ∀ c ∈ s.toList, c.toNat < 0x80) :
    s.utf8ByteSize = s.toList.length := by
  have hone : ∀ {c : Char}, c.toNat < 0x80 → c.utf8Size = 1 := by
    intro c hc
    have hle : c.val ≤ 0x7F := UInt32.le_iff_toNat_le.2 (Nat.le_of_lt_succ hc)
    exact if_pos hle
  have hlist : ∀ l : List Char, (∀ c ∈ l, c.toNat < 0x80) →
      (String.ofList l).utf8ByteSize = l.length := by
    intro l
    induction l with
    | nil => exact fun _ => rfl
    | cons c l ih =>
      intro hl
      rw [String.ofList_cons, String.utf8ByteSize_append, String.utf8ByteSize_singleton,
        hone (hl c (List.mem_cons_self ..)), ih fun d hd => hl d (List.mem_cons_of_mem _ hd),
        List.length_cons, Nat.add_comm]
  have hs := hlist s.toList h
  rwa [String.ofList_toList] at hs

/-! ## Pieces between separators -/

/-- Where a text of characters that pass a test is followed by one that does not, it
ends there. -/
theorem while_append {p : Char → Bool} {xs ys : List Char} (hx : ∀ c ∈ xs, p c = true)
    (hy : ∀ c, ys.head? = some c → p c = false) :
    (xs ++ ys).takeWhile p = xs ∧ (xs ++ ys).dropWhile p = ys := by
  rw [List.takeWhile_append_of_pos hx, List.dropWhile_append_of_pos hx]
  cases ys with
  | nil => exact ⟨List.append_nil xs, rfl⟩
  | cons c ys =>
    have hc := hy c rfl
    simp [hc]

theorem splitOn_cons_self (sep : Char) (cs : List Char) :
    (sep :: cs).splitOn sep = [] :: cs.splitOn sep := by
  rw [List.splitOn_cons_eq_if_modifyHead, if_pos (beq_self_eq_true sep)]

theorem splitOn_cons_of_ne {sep c : Char} (h : c ≠ sep) (cs : List Char) :
    ∃ p ps, cs.splitOn sep = p :: ps ∧ (c :: cs).splitOn sep = (c :: p) :: ps := by
  obtain ⟨p, ps, hp⟩ := List.exists_cons_of_ne_nil (List.splitOn_ne_nil sep cs)
  refine ⟨p, ps, hp, ?_⟩
  rw [List.splitOn_cons_eq_if_modifyHead, if_neg (by simpa using h), hp]
  rfl

/-- Pieces hold no separator, and no other characters than the text. -/
theorem of_mem_splitOn {sep : Char} {cs p : List Char} (h : p ∈ cs.splitOn sep) :
    sep ∉ p ∧ ∀ c ∈ p, c ∈ cs := by
  induction cs generalizing p with
  | nil =>
    rw [List.splitOn_nil, List.mem_singleton] at h
    subst h
    exact ⟨nofun, nofun⟩
  | cons d cs ih =>
    by_cases hd : d = sep
    · subst hd
      rw [splitOn_cons_self, List.mem_cons] at h
      rcases h with rfl | h
      · exact ⟨nofun, nofun⟩
      · exact ⟨(ih h).1, fun c hc => List.mem_cons_of_mem _ ((ih h).2 c hc)⟩
    · obtain ⟨q, qs, hq, hcons⟩ := splitOn_cons_of_ne hd cs
      rw [hcons, List.mem_cons] at h
      rw [hq] at ih
      rcases h with rfl | h
      · obtain ⟨hsep, hmem⟩ := ih (List.mem_cons_self ..)
        refine ⟨?_, fun c hc => ?_⟩
        · rw [List.mem_cons, not_or]
          exact ⟨fun h => hd h.symm, hsep⟩
        · rcases List.mem_cons.1 hc with rfl | hc
          · exact List.mem_cons_self ..
          · exact List.mem_cons_of_mem _ (hmem c hc)
      · obtain ⟨hsep, hmem⟩ := ih (List.mem_cons_of_mem _ h)
        exact ⟨hsep, fun c hc => List.mem_cons_of_mem _ (hmem c hc)⟩

theorem mem_intercalate {sep c : Char} {pieces : List (List Char)}
    (h : c ∈ [sep].intercalate pieces) : c = sep ∨ ∃ p ∈ pieces, c ∈ p := by
  induction pieces with
  | nil => cases h
  | cons p pieces ih =>
    cases pieces with
    | nil =>
      rw [List.intercalate_singleton] at h
      exact .inr ⟨p, List.mem_cons_self .., h⟩
    | cons q pieces =>
      rw [List.intercalate_cons_cons, List.mem_append, List.mem_append, List.mem_singleton] at h
      rcases h with (h | h) | h
      · exact .inr ⟨p, List.mem_cons_self .., h⟩
      · exact .inl h
      · rcases ih h with rfl | ⟨r, hr, hc⟩
        · exact .inl rfl
        · exact .inr ⟨r, List.mem_cons_of_mem _ hr, hc⟩

end Glasshouse.Url
