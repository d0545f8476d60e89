/-
Glasshouse.Proofs.Url.Hosts — hosts in normal form. A domain name that was read is
ASCII in small letters, without characters that no name has; its labels are
read as themselves, those beyond ASCII because their digits stand for them.
An IPv4 address is four octets, an IPv6 address eight groups, and both are
read from the numerals that write them. Main statement: `Host.normal_of_read`.
-/
import Glasshouse.Proofs.Url.Groups
import Glasshouse.Proofs.Url.Punycode
import Glasshouse.Url

namespace Glasshouse.Url

/-! ## Characters -/

theorem toLower_of_not_capital {c : Char} (h : c.toNat < 65 ∨ 90 < c.toNat) : c.toLower = c := by
  refine dif_neg ?_
  rintro ⟨hlow, hhigh⟩
  have hlow : 65 ≤ c.toNat := hlow
  have hhigh : c.toNat ≤ 90 := hhigh
  omega

theorem toLower_toLower (c : Char) : c.toLower.toLower = c.toLower := by
  have capitals : ∀ n < 91, (Char.ofNat n).toLower.toLower = (Char.ofNat n).toLower := by
    decide +kernel
  by_cases h : c.toNat < 91
  · have hc := capitals c.toNat h
    rwa [Char.ofNat_toNat] at hc
  · have hc : c.toLower = c := toLower_of_not_capital (by omega)
    rw [hc, hc]

theorem toLower_ofNat {n : Nat} (h : 90 < n) : (Char.ofNat n).toLower = Char.ofNat n := by
  refine toLower_of_not_capital ?_
  by_cases hn : n.isValidChar
  · rw [Char.ofNat, dif_pos hn]
    exact .inr h
  · rw [Char.ofNat, dif_neg hn]
    exact .inl (by decide)

/-- The images of small letters are no capital letters. -/
theorem toLower_of_mem_lowerChar {c d : Char} (h : d ∈ Text.lowerChar c) : d.toLower = d := by
  have himages : ∀ r ∈ Text.lowerRuns, 90 < r.image := by decide +kernel
  have hexpansions : ∀ p ∈ Text.lowerExpansions, ∀ n ∈ p.2, 90 < n := by decide +kernel
  unfold Text.lowerChar at h
  split at h
  · rw [List.mem_singleton.1 h]
    exact toLower_toLower c
  · rename_i hbeyond
    unfold Text.mapCase at h
    split at h
    · rename_i n hn
      obtain ⟨r, hr, himage⟩ := List.exists_of_findSome?_eq_some hn
      unfold Text.CaseRun.image? at himage
      split at himage
      · cases himage
        have hlt := himages r hr
        rw [List.mem_singleton.1 h]
        exact toLower_ofNat (by omega)
      · cases himage
    · split at h
      · rename_i ns hns
        obtain ⟨n, hn, rfl⟩ := List.mem_map.1 h
        obtain ⟨l, r, hmem, -⟩ := List.lookup_eq_some_iff.1 hns
        exact toLower_ofNat (hexpansions (c.toNat, ns) (by rw [hmem]; simp) n hn)
      · rw [List.mem_singleton.1 h]
        exact toLower_of_not_capital (by omega)

/-- The plain form of a character holds no capital letters. -/
theorem toLower_of_mem_plainForm {c d : Char} (h : d ∈ plainForm c) : d.toLower = d := by
  unfold plainForm at h
  dsimp only at h
  split at h
  · cases h
  · split at h
    · rw [List.mem_singleton.1 h]
      decide
    · split at h
      · exact toLower_of_mem_lowerChar h
      · exact toLower_of_mem_lowerChar h

/-- A character that a domain name in normal form can have. -/
structure NameChar (c : Char) : Prop where
  ascii : c.toNat < 128
  allowed : isForbidden c = false
  small : c.toLower = c

instance (c : Char) : Decidable (NameChar c) :=
  decidable_of_iff (c.toNat < 128 ∧ isForbidden c = false ∧ c.toLower = c)
    ⟨fun h => ⟨h.1, h.2.1, h.2.2⟩, fun h => ⟨h.1, h.2, h.3⟩⟩

theorem NameChar.plainForm_eq {c : Char} (h : NameChar c) : plainForm c = [c] := by
  have hascii := h.ascii
  unfold plainForm
  dsimp only
  rw [if_neg (by simp; omega), if_neg (by simp; omega), if_neg (by simp; omega)]
  unfold Text.lowerChar
  rw [if_pos hascii, h.small]

theorem NameChar.flatMap_plainForm {cs : List Char} (h : ∀ c ∈ cs, NameChar c) :
    cs.flatMap plainForm = cs := by
  induction cs with
  | nil => rfl
  | cons c cs ih =>
    rw [List.flatMap_cons, (h c (List.mem_cons_self ..)).plainForm_eq,
      ih fun d hd => h d (List.mem_cons_of_mem _ hd)]
    rfl

/-- Nothing in a name ends the authority of an address or starts an escape. -/
theorem NameChar.apart {c : Char} (h : NameChar c) : 0x20 < c.toNat ∧ c.toNat < 0x7F
    ∧ endsAuthority c = false ∧ c ∉ ['%', '@', ':', '[', ']'] := by
  have all : ∀ n < 128, NameChar (Char.ofNat n) → 0x20 < n ∧ n < 0x7F
      ∧ endsAuthority (Char.ofNat n) = false ∧ Char.ofNat n ∉ ['%', '@', ':', '[', ']'] := by
    decide +kernel
  have hc := all c.toNat h.ascii
  rw [Char.ofNat_toNat] at hc
  exact hc h

/-! ## Domain names -/

/-- A label in normal form. -/
structure Label (l : List Char) : Prop where
  reads : asciiLabel l = some l
  plain : ∀ c ∈ l, NameChar c
  noDot : '.' ∉ l

/-- A label that is read is in normal form. -/
theorem label_of_read {label l : List Char} (hsmall : ∀ c ∈ label, c.toLower = c)
    (hallowed : ∀ c ∈ label, c.toNat < 128 → isForbidden c = false) (hdot : '.' ∉ label)
    (h : asciiLabel label = some l) : Label l := by
  by_cases hascii : ∀ c ∈ label, c.toNat < 128
  · have hl : l = label := by
      unfold asciiLabel at h
      rw [if_pos (List.all_eq_true.2 fun c hc => decide_eq_true (hascii c hc))] at h
      split at h
      · split at h
        · split at h
          · cases h
          · exact (Option.some.inj h).symm
        · cases h
      · exact (Option.some.inj h).symm
    subst hl
    exact ⟨h, fun c hc => ⟨hascii c hc, hallowed c hc (hascii c hc), hsmall c hc⟩, hdot⟩
  · have hall : (label.all fun c => c.toNat < 128) = false := by
      rw [Bool.eq_false_iff, Ne, List.all_eq_true]
      exact fun hall => hascii fun c hc => of_decide_eq_true (hall c hc)
    have hl : l = 'x' :: 'n' :: '-' :: '-' :: Punycode.encode label := by
      unfold asciiLabel at h
      rw [hall] at h
      exact (Option.some.inj h).symm
    have hdigits : ∀ c ∈ 'x' :: 'n' :: '-' :: "abcdefghijklmnopqrstuvwxyz0123456789".toList,
        NameChar c ∧ c ≠ '.' :=
      List.all_iff_forall_prop.1 (by decide +kernel)
    have hchars : ∀ c ∈ l, NameChar c ∧ c ≠ '.' := by
      intro c hc
      rw [hl] at hc
      simp only [List.mem_cons] at hc
      rcases hc with rfl | rfl | rfl | rfl | hc
      · exact hdigits _ (by simp)
      · exact hdigits _ (by simp)
      · exact hdigits _ (by simp)
      · exact hdigits _ (by simp)
      · rcases Punycode.mem_encode hc with ⟨hmem, hlt⟩ | hdigit | rfl
        · exact ⟨⟨hlt, hallowed c hmem hlt, hsmall c hmem⟩, fun e => hdot (e ▸ hmem)⟩
        · exact hdigits c (List.mem_cons_of_mem _ (List.mem_cons_of_mem _
            (List.mem_cons_of_mem _ hdigit)))
        · exact hdigits _ (by simp)
    refine ⟨?_, fun c hc => (hchars c hc).1, fun hmem => (hchars _ hmem).2 rfl⟩
    have hlascii : (l.all fun c => c.toNat < 128) = true :=
      List.all_eq_true.2 fun c hc => decide_eq_true (hchars c hc).1.ascii
    unfold asciiLabel
    rw [if_pos hlascii, hl]
    simp only [Punycode.decode_encode, hall]
    rfl

theorem splitOn_labels {labels : List (List Char)} (hne : labels ≠ [])
    (h : ∀ l ∈ labels, Label l) : (['.'].intercalate labels).splitOn '.' = labels :=
  List.splitOn_intercalate '.' (fun l hl => (h l hl).noDot) hne

/-- A name of labels in normal form is read as itself. -/
theorem asciiDomain_labels {labels : List (List Char)} (hne : labels ≠ [])
    (h : ∀ l ∈ labels, Label l) :
    (∀ c ∈ ['.'].intercalate labels, NameChar c)
      ∧ asciiDomain (['.'].intercalate labels) = some (['.'].intercalate labels) := by
  have hchars : ∀ c ∈ ['.'].intercalate labels, NameChar c := by
    intro c hc
    rcases mem_intercalate hc with rfl | ⟨l, hl, hc⟩
    · decide +kernel
    · exact (h l hl).plain c hc
  refine ⟨hchars, ?_⟩
  have hallowed : ((['.'].intercalate labels).any fun c => c.toNat < 128 && isForbidden c)
      = false := by
    rw [List.any_eq_false]
    intro c hc
    rw [(hchars c hc).allowed, Bool.and_false]
    exact Bool.false_ne_true
  have hlabels : labels.mapM asciiLabel = some labels :=
    mapM_eq_some.2 (List.forall₂_same.2 fun l hl => (h l hl).reads)
  unfold asciiDomain
  dsimp only
  rw [NameChar.flatMap_plainForm hchars, hallowed, splitOn_labels hne h, hlabels]
  rfl

/-- A domain name that is read is one of labels in normal form. -/
theorem labels_of_asciiDomain {cs name : List Char} (h : asciiDomain cs = some name) :
    ∃ labels, labels ≠ [] ∧ (∀ l ∈ labels, Label l) ∧ name = ['.'].intercalate labels := by
  unfold asciiDomain at h
  dsimp only at h
  split at h
  · cases h
  · rename_i hallowed
    obtain ⟨labels, hlabels, h⟩ := Option.bind_eq_some_iff.1 h
    have hpieces := mapM_eq_some.1 hlabels
    refine ⟨labels, ?_, fun l hl => ?_, (Option.some.inj h).symm⟩
    · rintro rfl
      exact List.splitOn_ne_nil _ _ (List.forall₂_nil_right_iff.1 hpieces)
    · obtain ⟨label, hlabel, hread⟩ := exists_of_mem_right hpieces hl
      obtain ⟨hdot, hmem⟩ := of_mem_splitOn hlabel
      refine label_of_read (fun c hc => ?_) (fun c hc hlt => ?_) hdot hread
      · obtain ⟨d, -, hd⟩ := List.mem_flatMap.1 (hmem c hc)
        exact toLower_of_mem_plainForm hd
      · rw [Bool.not_eq_true, List.any_eq_false] at hallowed
        have hc := hallowed c (hmem c hc)
        simpa [hlt] using hc

/-! ## The place of a host -/

/-- A host in normal form: its text keeps to the place of a host in an address, and is read
as that host. -/
structure Host.Normal (h : Host) : Prop where
  reads : Host.read h.text.toList = .ok h
  filled : h.text.toList ≠ []
  plain : ∀ c ∈ h.text.toList, 0x20 < c.toNat ∧ c.toNat < 0x7F ∧ endsAuthority c = false ∧ c ≠ '@'
  stands : ∀ r, (∀ c, r.head? = some c → c = ':') →
    takeHost false (h.text.toList ++ r) = (h.text.toList, r)

theorem takeHost_append {bracket : Bool} {cs : List Char}
    (h : ∀ c ∈ cs, c ≠ '[' ∧ c ≠ ']' ∧ (c = ':' → bracket = true)) (r : List Char) :
    takeHost bracket (cs ++ r) = (cs ++ (takeHost bracket r).1, (takeHost bracket r).2) := by
  induction cs with
  | nil => rfl
  | cons c cs ih =>
    obtain ⟨hopen, hclose, hcolon⟩ := h c (List.mem_cons_self ..)
    have hgo : (c == ':' && !bracket) = false := by
      rw [Bool.and_eq_false_imp, beq_iff_eq]
      intro hc
      rw [hcolon hc]
      rfl
    rw [List.cons_append, takeHost, hgo, if_neg Bool.false_ne_true, beq_false_of_ne hopen,
      beq_false_of_ne hclose]
    simp only [Bool.false_eq_true, if_false]
    rw [ih fun d hd => h d (List.mem_cons_of_mem _ hd)]
    rfl

theorem takeHost_end {r : List Char} (h : ∀ c, r.head? = some c → c = ':') :
    takeHost false r = ([], r) := by
  cases r with
  | nil => rfl
  | cons c r =>
    rw [h c rfl]
    rfl

/-- A text of the characters of a name keeps to the place of a host. -/
theorem takeHost_name {cs r : List Char} (h : ∀ c ∈ cs, NameChar c)
    (hr : ∀ c, r.head? = some c → c = ':') : takeHost false (cs ++ r) = (cs, r) := by
  have hcs : ∀ c ∈ cs, c ≠ '[' ∧ c ≠ ']' ∧ (c = ':' → false = true) := by
    intro c hc
    have hapart := (h c hc).apart.2.2.2
    simp only [List.mem_cons, List.not_mem_nil, or_false, not_or] at hapart
    exact ⟨hapart.2.2.2.1, hapart.2.2.2.2, fun e => absurd e hapart.2.2.1⟩
  rw [takeHost_append hcs, takeHost_end hr, List.append_nil]

/-- A text of the characters of a name is read by its parts. -/
theorem read_name {cs : List Char} (hne : cs ≠ []) (h : ∀ c ∈ cs, NameChar c)
    (hread : asciiDomain cs = some cs) : Host.read cs
      = if endsInNumber cs then readIpv4 cs else .ok (.domain (String.ofList cs)) := by
  have hapart : ∀ c ∈ cs, c ≠ '%' ∧ c ≠ '[' := by
    intro c hc
    have hapart := (h c hc).apart.2.2.2
    simp only [List.mem_cons, List.not_mem_nil, or_false, not_or] at hapart
    exact ⟨hapart.1, hapart.2.2.2.1⟩
  have hdecode : decode? cs = some cs :=
    decode_of_ascii (fun c hc => (h c hc).ascii) fun hmem => (hapart _ hmem).1 rfl
  unfold Host.read
  split
  · exact absurd rfl (hapart '[' (List.mem_cons_self ..)).2
  · rw [hdecode, Option.bind_some, hread]
    split
    · contradiction
    · rename_i heq
      exact absurd (Option.some.inj heq) hne
    · rename_i heq
      rw [Option.some.inj heq]

theorem normal_of_name {h : Host} (hne : h.text.toList ≠ [])
    (hchars : ∀ c ∈ h.text.toList, NameChar c) (hread : Host.read h.text.toList = .ok h) :
    h.Normal := by
  refine ⟨hread, hne, fun c hc => ?_, fun r hr => takeHost_name hchars hr⟩
  obtain ⟨hlow, hhigh, hends, hapart⟩ := (hchars c hc).apart
  simp only [List.mem_cons, List.not_mem_nil, or_false, not_or] at hapart
  exact ⟨hlow, hhigh, hends, hapart.2.1⟩

/-! ## IPv4 -/

theorem label_toDigits (n : Nat) : Label (Nat.toDigits 10 n) := by
  have hdigits : ∀ d < 10, NameChar d.digitChar ∧ d.digitChar ≠ '.' ∧ d.digitChar ≠ 'x' := by
    decide +kernel
  have hchars : ∀ c ∈ Nat.toDigits 10 n, NameChar c ∧ c ≠ '.' ∧ c ≠ 'x' := by
    intro c hc
    obtain ⟨d, hd, rfl⟩ := digit_of_mem_toDigits (by omega) hc
    exact hdigits d hd
  refine ⟨?_, fun c hc => (hchars c hc).1, fun hmem => (hchars _ hmem).2.1 rfl⟩
  unfold asciiLabel
  rw [if_pos (List.all_eq_true.2 fun c hc => decide_eq_true (hchars c hc).1.ascii)]
  split
  · rename_i hx
    exact absurd rfl (hchars 'x' (by rw [hx]; exact List.mem_cons_self ..)).2.2
  · rfl

/-- A decimal numeral is a part of an IPv4 address. -/
theorem ipv4Part_toDigits (n : Nat) : ipv4Part? (Nat.toDigits 10 n) = some n := by
  have hdigits : ∀ d < 10, (hexDigit? d.digitChar).any (· < 10) = true := by decide +kernel
  have hall : ((Nat.toDigits 10 n).all fun c => (hexDigit? c).any (· < 10)) = true := by
    rw [List.all_eq_true]
    intro c hc
    obtain ⟨d, hd, rfl⟩ := digit_of_mem_toDigits (by omega) hc
    exact hdigits d hd
  have hempty : (Nat.toDigits 10 n).isEmpty = false :=
    Bool.eq_false_iff.2 fun h => Nat.toDigits_ne_nil (List.isEmpty_iff.1 h)
  -- only zero starts with the digit that would make it octal or hexadecimal
  have hzero : ∀ d r, Nat.toDigits 10 n ≠ '0' :: d :: r := by
    intro d r h
    have hhead : (Nat.toDigits 10 n).head? = some '0' := by
      rw [h]
      rfl
    rw [toDigits_of_head_zero (by omega) hhead, Nat.toDigits_zero] at h
    cases h
  unfold ipv4Part?
  split
  rename_i base ds heq
  split at heq
  · exact absurd ‹_› (hzero _ _)
  · exact absurd ‹_› (hzero _ _)
  · exact absurd ‹_› (hzero _ _)
  · cases heq
    rw [hempty, if_neg Bool.false_ne_true, if_pos hall, baseValue_toDigits (by omega) (by omega)]

/-- The octets of an address. -/
def octets (a : Nat) : List Nat :=
  [a / 0x1000000, a / 0x10000 % 256, a / 256 % 256, a % 256]

theorem text_ipv4 (a : Nat) :
    (Host.ipv4 a).text.toList = ['.'].intercalate ((octets a).map (Nat.toDigits 10)) := by
  simp [Host.text, octets, List.intercalate_cons_cons, toString]

theorem labels_octets (a : Nat) : ∀ l ∈ (octets a).map (Nat.toDigits 10), Label l := by
  intro l hl
  obtain ⟨n, -, rfl⟩ := List.mem_map.1 hl
  exact label_toDigits n

theorem dotted_octets (a : Nat) :
    dotted (['.'].intercalate ((octets a).map (Nat.toDigits 10)))
      = (octets a).map (Nat.toDigits 10) := by
  unfold dotted
  rw [splitOn_labels (by simp [octets]) (labels_octets a)]
  dsimp only
  split
  · rename_i hlast
    exact absurd (Option.some.inj hlast) Nat.toDigits_ne_nil
  · rfl

/-- The octets of an address are read as that address. -/
theorem readIpv4_octets {a : Nat} (h : a < 0x100000000) :
    readIpv4 (['.'].intercalate ((octets a).map (Nat.toDigits 10))) = .ok (.ipv4 a) := by
  have hparts : ((octets a).map (Nat.toDigits 10)).mapM ipv4Part? = some (octets a) := by
    rw [mapM_eq_some, List.forall₂_map_left_iff]
    exact List.forall₂_same.2 fun n _ => ipv4Part_toDigits n
  have hfirsts : [a / 0x1000000, a / 0x10000 % 256, a / 256 % 256].any (255 < ·) = false := by
    simp
    omega
  have hsum : a % 256 + a / 0x1000000 * Nat.pow 256 (3 - 0)
      + a / 0x10000 % 256 * Nat.pow 256 (3 - 1) + a / 256 % 256 * Nat.pow 256 (3 - 2) = a := by
    show a % 256 + a / 0x1000000 * 0x1000000 + a / 0x10000 % 256 * 0x10000
      + a / 256 % 256 * 256 = a
    omega
  unfold readIpv4
  dsimp only
  rw [dotted_octets, hparts]
  refine (if_neg (by simp [octets])).trans ?_
  show (if Nat.pow 256 (4 - 3) ≤ a % 256
    || [a / 0x1000000, a / 0x10000 % 256, a / 256 % 256].any (255 < ·) then _ else
      Except.ok (Host.ipv4 (a % 256 + a / 0x1000000 * Nat.pow 256 (3 - 0)
        + a / 0x10000 % 256 * Nat.pow 256 (3 - 1) + a / 256 % 256 * Nat.pow 256 (3 - 2)))) = _
  rw [hfirsts, hsum]
  exact if_neg (by simp; omega)

theorem endsInNumber_octets (a : Nat) :
    endsInNumber (['.'].intercalate ((octets a).map (Nat.toDigits 10))) = true := by
  have hlast : ((octets a).map (Nat.toDigits 10)).getLast? = some (Nat.toDigits 10 (a % 256)) := rfl
  have hempty : (Nat.toDigits 10 (a % 256)).isEmpty = false :=
    Bool.eq_false_iff.2 fun h => Nat.toDigits_ne_nil (List.isEmpty_iff.1 h)
  have hdigits : (Nat.toDigits 10 (a % 256)).all Char.isDigit = true :=
    List.all_eq_true.2 fun c hc => Nat.isDigit_of_mem_toDigits (by omega) (by omega) hc
  unfold endsInNumber
  rw [dotted_octets, hlast]
  dsimp only
  rw [hempty, hdigits]
  rfl

theorem normal_ipv4 {a : Nat} (h : a < 0x100000000) : (Host.ipv4 a).Normal := by
  have hne : (octets a).map (Nat.toDigits 10) ≠ [] := List.cons_ne_nil _ _
  have hname := asciiDomain_labels hne (labels_octets a)
  rw [← text_ipv4 a] at hname
  have hfilled : (Host.ipv4 a).text.toList ≠ [] := by
    rw [text_ipv4]
    simp [octets, List.intercalate_cons_cons]
  refine normal_of_name hfilled hname.1 ?_
  rw [read_name hfilled hname.1 hname.2, text_ipv4, if_pos (endsInNumber_octets a),
    readIpv4_octets h]

/-- Octets fill the places before the last number and no others. -/
theorem sum_le {firsts : List Nat} {k : Nat} (hlength : k + firsts.length ≤ 3)
    (hfirsts : ∀ n ∈ firsts, n ≤ 255) (last : Nat) :
    ((firsts.zipIdx k).map fun p => p.1 * Nat.pow 256 (3 - p.2)).foldl (· + ·) last
      + 256 ^ (4 - (k + firsts.length)) ≤ last + 256 ^ (4 - k) := by
  induction firsts generalizing k last with
  | nil => exact Nat.le_refl _
  | cons n firsts ih =>
    rw [List.length_cons] at hlength ⊢
    have hrest := ih (k := k + 1) (by omega) (fun m hm => hfirsts m (List.mem_cons_of_mem _ hm))
      (last + n * 256 ^ (3 - k))
    have hplace : (n + 1) * 256 ^ (3 - k) ≤ 256 * 256 ^ (3 - k) :=
      Nat.mul_le_mul_right _ (Nat.succ_le_succ (hfirsts n (List.mem_cons_self ..)))
    have hpow : 256 ^ (4 - k) = 256 * 256 ^ (3 - k) := by
      rw [← Nat.pow_succ']
      congr 1
      omega
    rw [show 4 - (k + 1) = 3 - k by omega, Nat.add_right_comm k 1] at hrest
    rw [Nat.succ_mul] at hplace
    rw [hpow, List.zipIdx_cons, List.map_cons, List.foldl_cons]
    refine Nat.le_trans hrest ?_
    omega

/-- An IPv4 address that is read has 32 bits. -/
theorem lt_of_readIpv4 {name : List Char} {h : Host} (hread : readIpv4 name = .ok h) :
    ∃ a < 0x100000000, h = .ipv4 a := by
  unfold readIpv4 at hread
  dsimp only at hread
  split at hread
  · cases hread
  · rename_i hparts
    split at hread
    · cases hread
    · rename_i ns hns
      have hlength := (mapM_eq_some.1 hns).length_eq
      split at hread
      · cases hread
      · rename_i last firsts hreverse
        have hfirsts : firsts.reverse.length ≤ 3 := by
          have := congrArg List.length hreverse
          simp only [List.length_reverse, List.length_cons] at this ⊢
          omega
        generalize firsts.reverse = firsts at hread hfirsts
        split at hread
        · cases hread
        · rename_i hbound
          refine ⟨_, ?_, (Except.ok.inj hread).symm⟩
          simp only [Bool.or_eq_true, decide_eq_true_eq, List.any_eq_true, not_or, not_exists,
            not_and, Nat.not_le, Nat.not_lt] at hbound
          obtain ⟨hlast, hsmall⟩ := hbound
          have hsum := sum_le (k := 0) (by omega) hsmall last
          rw [Nat.zero_add] at hsum
          replace hlast : last < 256 ^ (4 - firsts.length) := hlast
          show _ < 256 ^ 4
          omega

/-! ## Hosts -/

theorem normal_domain {labels : List (List Char)} (hne : labels ≠ []) (h : ∀ l ∈ labels, Label l)
    (hfilled : ['.'].intercalate labels ≠ [])
    (hend : endsInNumber (['.'].intercalate labels) = false) :
    (Host.domain (String.ofList (['.'].intercalate labels))).Normal := by
  obtain ⟨hchars, hread⟩ := asciiDomain_labels hne h
  have htext : (Host.domain (String.ofList (['.'].intercalate labels))).text.toList
      = ['.'].intercalate labels := String.toList_ofList
  have hname : Host.read (['.'].intercalate labels)
      = .ok (.domain (String.ofList (['.'].intercalate labels))) := by
    rw [read_name hfilled hchars hread, hend]
    rfl
  apply normal_of_name <;> rw [htext]
  · exact hfilled
  · exact hchars
  · exact hname

theorem normal_ipv6 {ns : List Nat} (h : Groups ns) : (Host.ipv6 ns).Normal := by
  have hchars : ∀ c ∈ (ipv6Text ns).toList, c ∈ ":0123456789abcdef".toList := by
    intro c hc
    unfold ipv6Text at hc
    split at hc
    · rw [String.toList_append, String.toList_append, List.mem_append, List.mem_append,
        toList_groupsText, toList_groupsText] at hc
      rcases hc with (hc | hc) | hc
      · exact of_mem_groupChars hc
      · rw [show "::".toList = [':', ':'] from rfl] at hc
        simp only [List.mem_cons, List.not_mem_nil, or_false, or_self] at hc
        rw [hc]
        exact List.mem_cons_self ..
      · exact of_mem_groupChars hc
    · rw [toList_groupsText] at hc
      exact of_mem_groupChars hc
  have htext : (Host.ipv6 ns).text.toList = '[' :: ((ipv6Text ns).toList ++ [']']) := by
    show ("[" ++ ipv6Text ns ++ "]").toList = _
    rw [String.toList_append, String.toList_append]
    rfl
  refine ⟨?_, ?_, ?_, ?_⟩
  · rw [htext, Host.read, List.reverse_append, List.reverse_singleton, List.singleton_append]
    show readIpv6 (ipv6Text ns).toList.reverse.reverse = _
    rw [List.reverse_reverse, readIpv6_text h]
  · rw [htext]
    exact List.cons_ne_nil _ _
  · have hplain : ∀ c ∈ '[' :: ']' :: ":0123456789abcdef".toList,
        0x20 < c.toNat ∧ c.toNat < 0x7F ∧ endsAuthority c = false ∧ c ≠ '@' :=
      List.all_iff_forall_prop.1 (by decide +kernel)
    intro c hc
    rw [htext, List.mem_cons, List.mem_append, List.mem_singleton] at hc
    rcases hc with rfl | hc | rfl
    · exact hplain _ (by simp)
    · exact hplain c (List.mem_cons_of_mem _ (List.mem_cons_of_mem _ (hchars c hc)))
    · exact hplain _ (by simp)
  · have hinside : ∀ c ∈ (ipv6Text ns).toList, c ≠ '[' ∧ c ≠ ']' ∧ (c = ':' → true = true) := by
      have all : ∀ c ∈ ":0123456789abcdef".toList, c ≠ '[' ∧ c ≠ ']' :=
        List.all_iff_forall_prop.1 (by decide +kernel)
      exact fun c hc => ⟨(all c (hchars c hc)).1, (all c (hchars c hc)).2, fun _ => rfl⟩
    intro r hr
    rw [htext, List.cons_append, List.append_assoc]
    show ('[' :: (takeHost true ((ipv6Text ns).toList ++ (']' :: r))).1,
      (takeHost true ((ipv6Text ns).toList ++ (']' :: r))).2) = _
    rw [takeHost_append hinside]
    show ('[' :: ((ipv6Text ns).toList ++ ']' :: (takeHost false r).1), (takeHost false r).2) = _
    rw [takeHost_end hr]

/-- A host that is read is in normal form. -/
theorem Host.normal_of_read {cs : List Char} {h : Host} (hread : Host.read cs = .ok h) :
    h.Normal := by
  unfold Host.read at hread
  split at hread
  · split at hread
    · obtain ⟨ns, hns, rfl⟩ := groups_of_readIpv6 hread
      exact normal_ipv6 hns
    · cases hread
  · split at hread
    · cases hread
    · cases hread
    · rename_i name hfilled hname
      obtain ⟨_, -, hname⟩ := Option.bind_eq_some_iff.1 hname
      obtain ⟨labels, hne, hlabels, rfl⟩ := labels_of_asciiDomain hname
      split at hread
      · obtain ⟨a, ha, rfl⟩ := lt_of_readIpv4 hread
        exact normal_ipv4 ha
      · rename_i hend
        cases hread
        exact normal_domain hne hlabels (fun e => hfilled e) (Bool.eq_false_iff.2 hend)

end Glasshouse.Url
