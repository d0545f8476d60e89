/-
Glasshouse.Proofs.Url.Punycode — labels beyond ASCII and back. A delta is read from
its digits; within a pass the reader holds the characters below the code point
and those equal to it that the pass has seen, so that each delta says the place
of the next one. Main statement: `decode_encode`.
-/
import Glasshouse.Url.Punycode
import Mathlib.Data.List.Sort
import Mathlib.Tactic.Ring

namespace Glasshouse.Url.Punycode

/-! ## Deltas -/

theorem digitValue_digit {d : Nat} (h : d < 36) : digitValue? (digit d) = some d := by
  have all : ∀ d < 36, digitValue? (digit d) = some d := by decide +kernel
  exact all d h

/-- A digit is ASCII, and neither a hyphen nor a capital letter. -/
theorem plain_digit {d : Nat} (h : d < 36) : digit d ∈ "abcdefghijklmnopqrstuvwxyz0123456789".toList := by
  have all : ∀ d < 36, digit d ∈ "abcdefghijklmnopqrstuvwxyz0123456789".toList := by decide +kernel
  exact all d h

theorem digit_of_mem_encodeDelta {q k bias : Nat} {c : Char} (h : c ∈ encodeDelta q k bias) :
    ∃ d < 36, c = digit d := by
  induction q, k using encodeDelta.induct bias with
  | case1 q k t hlt =>
    have hle := threshold_le k bias
    rw [encodeDelta, if_pos hlt, List.mem_singleton] at h
    exact ⟨q, by omega, h⟩
  | case2 q k t hge ih =>
    have hle := threshold_le k bias
    rw [encodeDelta, if_neg hge, List.mem_cons] at h
    rcases h with h | h
    · have hmod : (q - threshold k bias) % (36 - threshold k bias) < 36 - threshold k bias :=
        Nat.mod_lt _ (by omega)
      exact ⟨_, by omega, h⟩
    · exact ih h

theorem encodeDelta_ne_nil (q k bias : Nat) : encodeDelta q k bias ≠ [] := by
  rw [encodeDelta]
  split <;> exact List.cons_ne_nil _ _

/-- A delta is read from its digits; it counts with the weight of the first of them. -/
theorem decodeDelta_encodeDelta (q k bias : Nat) (i w : Nat) (r : List Char) :
    decodeDelta i w k bias (encodeDelta q k bias ++ r) = some (i + q * w, r) := by
  induction q, k using encodeDelta.induct bias generalizing i w with
  | case1 q k t hlt =>
    have hle := threshold_le k bias
    rw [encodeDelta, if_pos hlt, List.singleton_append, decodeDelta, digitValue_digit (by omega)]
    exact if_pos hlt
  | case2 q k t hge ih =>
    have hle := threshold_le k bias
    have hmod : (q - threshold k bias) % (36 - threshold k bias) < 36 - threshold k bias :=
      Nat.mod_lt _ (by omega)
    have hsum : i + (t + (q - t) % (36 - t)) * w + (q - t) / (36 - t) * (w * (36 - t))
        = i + q * w := by
      have hq : t + ((q - t) % (36 - t) + (36 - t) * ((q - t) / (36 - t))) = q := by
        rw [Nat.mod_add_div]
        omega
      conv_rhs => rw [← hq]
      ring
    rw [encodeDelta, if_neg hge, List.cons_append, decodeDelta, digitValue_digit (by omega)]
    refine (if_neg (by omega)).trans ?_
    rw [ih, hsum]

/-! ## Passes -/

/-- What the reader carries along. -/
structure Reader where
  out : List Char
  n : Nat
  i : Nat
  bias : Nat

/-- The reader at work on the rest of a label. -/
def Reader.run (d : Reader) (fuel : Nat) (r : List Char) : Option (List Char) :=
  insertAll d.out d.n d.i d.bias fuel r

/-- Digits that lead the reader from its start to a state, whatever follows them. -/
def Leads (basic digits : List Char) (d : Reader) : Prop :=
  ∀ r fuel, (digits ++ r).length < fuel → ∃ rest, r.length < rest ∧
    insertAll basic 128 0 72 fuel (digits ++ r) = d.run rest r

/-- The writer within a pass for the code point `m`, between the characters `p` and the
characters `q`, and the reader of what it has written: the reader holds what is below `m`
and each `m` that was passed, and the delta is how far it lies behind. -/
structure Within (basic : List Char) (m : Nat) (p q : List Char) (s : State) (d : Reader) : Prop where
  out : d.out = p.filter (·.toNat ≤ m) ++ q.filter (·.toNat < m)
  handled : s.handled = d.out.length
  bias : s.bias = d.bias
  behind : d.n ≤ m
  distance : d.i + s.delta = (m - d.n) * (s.handled + 1) + (p.filter (·.toNat ≤ m)).length
  first : (d.i == 0) = (s.handled == basic.length)
  more : basic.length ≤ s.handled
  written : ∃ digits, s.out = (if basic.isEmpty then [] else basic ++ ['-']) ++ digits
    ∧ (∀ c ∈ digits, ∃ v < 36, c = digit v) ∧ Leads basic digits d

/-- What a pass does at one character. -/
def passStep (basic m : Nat) (s : State) (c : Char) : State :=
  if c.toNat < m then { s with delta := s.delta + 1 }
  else if c.toNat == m then
    { s with
      out := s.out ++ encodeDelta s.delta 36 s.bias,
      bias := adapt s.delta (s.handled + 1) (s.handled == basic),
      delta := 0,
      handled := s.handled + 1 }
  else s

theorem pass_eq (cs : List Char) (basic m : Nat) (s : State) : pass cs basic m s
    = let s := cs.foldl (passStep basic m)
        { s with delta := s.delta + (m - s.n) * (s.handled + 1), n := m }
      { s with delta := s.delta + 1, n := m + 1 } := rfl

/-- The reader puts the character of a delta where the delta says. -/
theorem Reader.run_encodeDelta {d : Reader} {before after : List Char} {c : Char} {delta : Nat}
    (hout : d.out = before ++ after) (hn : d.n ≤ c.toNat)
    (hdelta : d.i + delta = (c.toNat - d.n) * (d.out.length + 1) + before.length)
    (fuel : Nat) (r : List Char) :
    d.run (fuel + 1) (encodeDelta delta 36 d.bias ++ r)
      = Reader.run ⟨before ++ c :: after, c.toNat, before.length + 1,
          adapt delta (d.out.length + 1) (d.i == 0)⟩ fuel r := by
  have hlt : before.length < d.out.length + 1 := by
    rw [hout, List.length_append]
    omega
  have hdiv : (d.i + delta) / (d.out.length + 1) = c.toNat - d.n := by
    rw [hdelta, Nat.mul_comm, Nat.mul_add_div (by omega), Nat.div_eq_of_lt hlt, Nat.add_zero]
  have hmod : (d.i + delta) % (d.out.length + 1) = before.length := by
    rw [hdelta, Nat.mul_comm, Nat.mul_add_mod, Nat.mod_eq_of_lt hlt]
  have hpoint : d.n + (c.toNat - d.n) = c.toNat := by omega
  have hvalid : (0x10FFFF < c.toNat || (0xD800 ≤ c.toNat && c.toNat < 0xE000)) = false := by
    have h : c.toNat < 0xD800 ∨ 0xDFFF < c.toNat ∧ c.toNat < 0x110000 := c.valid
    simp only [Bool.or_eq_false_iff, Bool.and_eq_false_iff, decide_eq_false_iff_not]
    omega
  obtain ⟨e, es, hes⟩ := List.exists_cons_of_ne_nil (encodeDelta_ne_nil delta 36 d.bias)
  have hdecode := decodeDelta_encodeDelta delta 36 d.bias d.i 1 r
  rw [Nat.mul_one] at hdecode
  unfold Reader.run
  rw [hes] at hdecode ⊢
  rw [List.cons_append] at hdecode ⊢
  rw [insertAll, hdecode]
  · show (if 0x10FFFF < d.n + (d.i + delta) / (d.out.length + 1)
      || (0xD800 ≤ d.n + (d.i + delta) / (d.out.length + 1)
        && d.n + (d.i + delta) / (d.out.length + 1) < 0xE000) then none else _) = _
    rw [hdiv, hmod, hpoint, hvalid, Nat.add_sub_cancel_left, Char.ofNat_toNat, hout,
      List.take_left, List.drop_left]
    rfl
  · exact nofun

theorem Leads.encodeDelta {basic digits before after : List Char} {d : Reader} {c : Char}
    {delta : Nat} (h : Leads basic digits d) (hout : d.out = before ++ after)
    (hn : d.n ≤ c.toNat)
    (hdelta : d.i + delta = (c.toNat - d.n) * (d.out.length + 1) + before.length) :
    Leads basic (digits ++ Punycode.encodeDelta delta 36 d.bias)
      ⟨before ++ c :: after, c.toNat, before.length + 1,
        adapt delta (d.out.length + 1) (d.i == 0)⟩ := by
  intro r fuel hfuel
  rw [List.append_assoc] at hfuel ⊢
  obtain ⟨rest, hrest, hrun⟩ := h _ fuel hfuel
  have hne := List.length_pos_iff.2 (encodeDelta_ne_nil delta 36 d.bias)
  rw [List.length_append] at hrest
  obtain ⟨rest, rfl⟩ : ∃ k, rest = k + 1 := ⟨rest - 1, by omega⟩
  rw [Reader.run_encodeDelta hout hn hdelta] at hrun
  exact ⟨rest, by omega, hrun⟩

/-- A character of no higher code point is among those that a pass has read. -/
theorem filter_concat_of_le (p : List Char) {c : Char} {m : Nat} (h : c.toNat ≤ m) :
    (p ++ [c]).filter (·.toNat ≤ m) = p.filter (·.toNat ≤ m) ++ [c] := by
  simp [List.filter_append, h]

theorem filter_concat_of_lt (p : List Char) {c : Char} {m : Nat} (h : m < c.toNat) :
    (p ++ [c]).filter (·.toNat ≤ m) = p.filter (·.toNat ≤ m) := by
  simp [List.filter_append, h]

section Pass

variable {basic p q : List Char} {m : Nat} {s : State} {d : Reader} {c : Char}

/-- A character of a lower code point is there already and adds to the distance. -/
theorem Within.below (h : Within basic m p (c :: q) s d) (hlt : c.toNat < m) :
    Within basic m (p ++ [c]) q { s with delta := s.delta + 1 } d := by
  refine ⟨?_, h.handled, h.bias, h.behind, ?_, h.first, h.more, h.written⟩
  · rw [h.out, filter_concat_of_le p hlt.le, List.filter_cons_of_pos (by simpa using hlt),
      List.append_assoc]
    rfl
  · show d.i + (s.delta + 1) = _
    rw [filter_concat_of_le p hlt.le, List.length_append, List.length_singleton, ← Nat.add_assoc,
      h.distance, Nat.add_assoc]

/-- A character of the code point of the pass is written as a delta, and the reader puts it
where it stands. -/
theorem Within.reached (h : Within basic m p (c :: q) s d) (heq : c.toNat = m) :
    ∃ d, Within basic m (p ++ [c]) q
      { s with
        out := s.out ++ encodeDelta s.delta 36 s.bias,
        bias := adapt s.delta (s.handled + 1) (s.handled == basic.length),
        delta := 0,
        handled := s.handled + 1 } d := by
  have hout : d.out = p.filter (·.toNat ≤ m) ++ q.filter (·.toNat < m) := by
    rw [h.out, List.filter_cons_of_neg (by simp [heq])]
  have hdelta : d.i + s.delta
      = (c.toNat - d.n) * (d.out.length + 1) + (p.filter (·.toNat ≤ m)).length := by
    rw [heq, ← h.handled]
    exact h.distance
  obtain ⟨digits, hs, hdigits, hleads⟩ := h.written
  refine ⟨_, ?_, ?_, ?_, heq.le, ?_, ?_, Nat.le_succ_of_le h.more, _, ?_, ?_,
    hleads.encodeDelta hout (heq ▸ h.behind) hdelta⟩
  · rw [filter_concat_of_le p heq.le, List.append_assoc]
    rfl
  · simp only [List.length_append, List.length_cons]
    rw [h.handled, hout, List.length_append]
    omega
  · simp only [h.first, h.handled]
  · simp only [heq, Nat.sub_self, Nat.zero_mul, filter_concat_of_le p heq.le]
    simp
  · have hmore := h.more
    exact (beq_eq_false_iff_ne.2 (Nat.succ_ne_zero _)).trans
      (beq_eq_false_iff_ne.2 (by dsimp only; omega)).symm
  · rw [hs, h.bias, List.append_assoc]
  · intro e he
    rcases List.mem_append.1 he with he | he
    · exact hdigits e he
    · exact digit_of_mem_encodeDelta he

/-- A character of a higher code point waits for a later pass. -/
theorem Within.above (h : Within basic m p (c :: q) s d) (hgt : m < c.toNat) :
    Within basic m (p ++ [c]) q s d := by
  refine ⟨?_, h.handled, h.bias, h.behind, ?_, h.first, h.more, h.written⟩
  · rw [h.out, filter_concat_of_lt p hgt, List.filter_cons_of_neg (by simp; omega)]
  · rw [filter_concat_of_lt p hgt, h.distance]

/-- One character of a pass. -/
theorem Within.step (h : Within basic m p (c :: q) s d) :
    ∃ d, Within basic m (p ++ [c]) q (passStep basic.length m s c) d := by
  unfold passStep
  rcases Nat.lt_trichotomy c.toNat m with hlt | heq | hgt
  · rw [if_pos hlt]
    exact ⟨d, h.below hlt⟩
  · rw [if_neg (by omega), if_pos (beq_iff_eq.2 heq)]
    exact h.reached heq
  · rw [if_neg (by omega), if_neg (by simp; omega)]
    exact ⟨d, h.above hgt⟩

end Pass

/-- The rest of a pass. -/
theorem Within.foldl {basic p q : List Char} {m : Nat} {s : State} {d : Reader}
    (h : Within basic m p q s d) :
    ∃ d, Within basic m (p ++ q) [] (q.foldl (passStep basic.length m) s) d := by
  induction q generalizing p s d with
  | nil => exact ⟨d, by rwa [List.append_nil]⟩
  | cons c q ih =>
    obtain ⟨d, hd⟩ := h.step
    obtain ⟨d, hd⟩ := ih hd
    exact ⟨d, by rwa [List.append_assoc] at hd⟩

/-- The writer between passes: everything below its code point is written. -/
structure Between (basic cs : List Char) (s : State) (d : Reader) : Prop where
  out : d.out = cs.filter (·.toNat < s.n)
  handled : s.handled = d.out.length
  bias : s.bias = d.bias
  behind : d.n ≤ s.n
  distance : d.i + s.delta = (s.n - d.n) * (s.handled + 1)
  first : (d.i == 0) = (s.handled == basic.length)
  more : basic.length ≤ s.handled
  written : ∃ digits, s.out = (if basic.isEmpty then [] else basic ++ ['-']) ++ digits
    ∧ (∀ c ∈ digits, ∃ v < 36, c = digit v) ∧ Leads basic digits d

/-- A pass for the least code point that is not written yet. -/
theorem Between.pass {basic cs : List Char} {s : State} {d : Reader} {m : Nat}
    (h : Between basic cs s d) (hm : s.n ≤ m) (hleast : ∀ c ∈ cs, s.n ≤ c.toNat → m ≤ c.toNat) :
    ∃ d, Between basic cs (pass cs basic.length m s) d := by
  have hstart : Within basic m [] cs
      { s with delta := s.delta + (m - s.n) * (s.handled + 1), n := m } d := by
    refine ⟨?_, h.handled, h.bias, h.behind.trans hm, ?_, h.first, h.more, h.written⟩
    · rw [h.out, List.filter_nil, List.nil_append]
      refine List.filter_congr fun c hc => decide_eq_decide.2 ⟨fun hlt => by omega, fun hlt => ?_⟩
      exact Nat.lt_of_not_le fun hle => absurd (hleast c hc hle) (by omega)
    · have hbehind := h.behind
      show d.i + (s.delta + (m - s.n) * (s.handled + 1)) = (m - d.n) * (s.handled + 1) + 0
      rw [← Nat.add_assoc, h.distance, ← Nat.add_mul, Nat.add_zero]
      congr 1
      omega
  obtain ⟨d, hd⟩ := hstart.foldl
  have hout : d.out = cs.filter (·.toNat ≤ m) := by
    rw [hd.out, List.nil_append, List.filter_nil, List.append_nil]
  refine ⟨d, ?_, hd.handled, hd.bias, hd.behind.trans (Nat.le_succ m), ?_, hd.first, hd.more,
    hd.written⟩
  · rw [hout]
    exact List.filter_congr fun c _ => decide_eq_decide.2 Nat.lt_succ_iff.symm
  · have hbehind := hd.behind
    have hdistance := hd.distance
    rw [List.nil_append, ← hout, ← hd.handled] at hdistance
    rw [pass_eq]
    dsimp only
    rw [← Nat.add_assoc, hdistance, Nat.sub_add_comm hbehind, Nat.add_mul, Nat.one_mul,
      Nat.add_assoc]

/-! ## Labels -/

/-- Passes for code points from small to large, those of the characters that are not
written yet. -/
theorem Between.passes {basic cs : List Char} {points : List Nat} {s : State} {d : Reader}
    (h : Between basic cs s d) (hsorted : points.Pairwise (· < ·))
    (hmem : ∀ m, m ∈ points ↔ s.n ≤ m ∧ ∃ c ∈ cs, c.toNat = m) :
    ∃ s' d, Between basic cs s' d ∧ d.out = cs
      ∧ points.foldl (fun s m => Punycode.pass cs basic.length m s) s = s' := by
  induction points generalizing s d with
  | nil =>
    refine ⟨s, d, h, ?_, rfl⟩
    rw [h.out, List.filter_eq_self]
    intro c hc
    exact decide_eq_true (Nat.lt_of_not_le fun hle => nomatch (hmem c.toNat).2 ⟨hle, c, hc, rfl⟩)
  | cons m points ih =>
    obtain ⟨hfirst, hsorted⟩ := List.pairwise_cons.1 hsorted
    have hm := (hmem m).1 (List.mem_cons_self ..)
    have hleast : ∀ c ∈ cs, s.n ≤ c.toNat → m ≤ c.toNat := by
      intro c hc hle
      rcases List.mem_cons.1 ((hmem c.toNat).2 ⟨hle, c, hc, rfl⟩) with heq | hrest
      · exact heq.ge
      · exact (hfirst _ hrest).le
    obtain ⟨d, hd⟩ := h.pass hm.1 hleast
    refine ih hd hsorted fun k => ?_
    have hn : (Punycode.pass cs basic.length m s).n = m + 1 := rfl
    rw [hn]
    constructor
    · intro hk
      exact ⟨hfirst k hk, ((hmem k).1 (List.mem_cons_of_mem _ hk)).2⟩
    · rintro ⟨hlt, hk⟩
      rcases List.mem_cons.1 ((hmem k).2 ⟨by omega, hk⟩) with rfl | hk
      · omega
      · exact hk

/-- A sorted list without its repetitions is strictly sorted. -/
theorem eraseDups_strict {l : List Nat} (h : l.Pairwise (· ≤ ·)) : l.eraseDups.Pairwise (· < ·) := by
  -- each head takes all its further occurrences away, so the length carries the induction
  induction hn : l.length using Nat.strongRecOn generalizing l with
  | ind n ih =>
    cases l with
    | nil => exact .nil
    | cons x l =>
      obtain ⟨hhead, htail⟩ := List.pairwise_cons.1 h
      have hlt : (l.filter fun y => !y == x).length < n :=
        hn ▸ Nat.lt_succ_of_le (List.length_filter_le _ _)
      rw [List.eraseDups_cons, List.pairwise_cons]
      refine ⟨fun y hy => ?_, ih _ hlt (htail.filter _) rfl⟩
      obtain ⟨hmem, hne⟩ := List.mem_filter.1 (List.mem_eraseDups.1 hy)
      have hle := hhead y hmem
      have hxy : y ≠ x := by simpa using hne
      omega

/-- What is written for a label: its ASCII characters, a hyphen behind them, and digits
that lead the reader from them to the label. -/
theorem encode_leads (cs : List Char) : ∃ digits d, encode cs
      = (if (cs.filter (·.toNat < 128)).isEmpty then [] else cs.filter (·.toNat < 128) ++ ['-'])
        ++ digits
    ∧ (∀ c ∈ digits, ∃ v < 36, c = digit v) ∧ Leads (cs.filter (·.toNat < 128)) digits d
    ∧ d.out = cs := by
  have hstart : Between (cs.filter (·.toNat < 128)) cs
      { handled := (cs.filter (·.toNat < 128)).length,
        out := if (cs.filter (·.toNat < 128)).isEmpty then [] else cs.filter (·.toNat < 128) ++ ['-'] }
      ⟨cs.filter (·.toNat < 128), 128, 0, 72⟩ := by
    refine ⟨rfl, rfl, rfl, Nat.le_refl _, ?_, ?_, Nat.le_refl _, [], (List.append_nil _).symm,
      nofun, fun r fuel hfuel => ⟨fuel, hfuel, rfl⟩⟩
    · dsimp only
      rw [Nat.sub_self, Nat.zero_mul]
    · rw [beq_self_eq_true, beq_self_eq_true]
  have hsorted := List.pairwise_mergeSort' (· ≤ ·) ((cs.map Char.toNat).filter (128 ≤ ·))
  obtain ⟨s, d, hd, hout, hfold⟩ := hstart.passes (eraseDups_strict hsorted) fun m => by
    rw [List.mem_eraseDups, List.mem_mergeSort, List.mem_filter, List.mem_map, and_comm,
      decide_eq_true_iff]
  obtain ⟨digits, hs, hdigits, hleads⟩ := hd.written
  refine ⟨digits, d, ?_, hdigits, hleads, hout⟩
  rw [← hs, ← hfold]
  rfl

/-- A label beyond ASCII is written with ASCII characters of its own, digits and a hyphen. -/
theorem mem_encode {cs : List Char} {c : Char} (h : c ∈ encode cs) :
    c ∈ cs ∧ c.toNat < 128 ∨ c ∈ "abcdefghijklmnopqrstuvwxyz0123456789".toList ∨ c = '-' := by
  obtain ⟨digits, d, hencode, hdigits, -, -⟩ := encode_leads cs
  rw [hencode, List.mem_append] at h
  rcases h with h | h
  · split at h
    · cases h
    · rcases List.mem_append.1 h with h | h
      · rw [List.mem_filter, decide_eq_true_iff] at h
        exact .inl h
      · rw [List.mem_singleton.1 h]
        exact .inr (.inr rfl)
  · obtain ⟨v, hv, rfl⟩ := hdigits c h
    exact .inr (.inl (plain_digit hv))

/-- A label is read from what was written for it. -/
theorem decode_encode (cs : List Char) : decode? (encode cs) = some cs := by
  obtain ⟨digits, d, hencode, hdigits, hleads, hout⟩ := encode_leads cs
  have hhyphen : ∀ c ∈ digits.reverse, (c != '-') = true := by
    intro c hc
    obtain ⟨v, hv, rfl⟩ := hdigits c (List.mem_reverse.1 hc)
    have all : ∀ v < 36, (digit v != '-') = true := by decide +kernel
    exact all v hv
  have hrun : insertAll (cs.filter (·.toNat < 128)) 128 0 72 (digits.length + 1) digits = some cs := by
    obtain ⟨rest, -, hrest⟩ := hleads [] (digits.length + 1) (by simp)
    rw [List.append_nil] at hrest
    rw [hrest, ← hout]
    unfold Reader.run
    rw [insertAll]
  have hbefore : ∀ l : List Char, (l ++ digits).take ((l ++ digits).length - digits.length) = l := by
    intro l
    rw [List.length_append, Nat.add_sub_cancel, List.take_left]
  -- the last hyphen stands before the digits, and behind the ASCII characters if there are any
  have htail : ((encode cs).reverse.takeWhile (· != '-')).reverse = digits := by
    rw [hencode, List.reverse_append, List.takeWhile_append_of_pos hhyphen]
    split <;> simp
  unfold decode?
  dsimp only
  rw [htail, hencode, hbefore]
  split
  · rename_i hempty
    rw [List.isEmpty_iff.1 hempty] at hrun
    exact hrun
  · rw [List.dropLast_concat]
    exact hrun

end Glasshouse.Url.Punycode
