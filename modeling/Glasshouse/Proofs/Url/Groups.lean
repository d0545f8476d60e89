/-
Glasshouse.Proofs.Url.Groups — the groups of an IPv6 address. Groups are written
in hexadecimal between colons, none of them empty, so that the gap left for the
longest run of zeros is the only place with two colons; what was left out is
zeros. Main statements: `readIpv6_text`, `groups_of_readIpv6`.
-/
import Glasshouse.Proofs.Url.Escapes
import Glasshouse.Proofs.Url.Numerals
import Glasshouse.Proofs.Doc.Reading

namespace Glasshouse.Url

/-- The groups of an IPv6 address. -/
structure Groups (ns : List Nat) : Prop where
  eight : ns.length = 8
  small : ∀ n ∈ ns, n < 0x10000

/-! ## What is read -/

theorem hexDigit_lt {c : Char} {v : Nat} (h : hexDigit? c = some v) : v < 16 := by
  unfold hexDigit? at h
  split at h
  · rename_i hdigit
    cases h
    simp only [Char.isDigit, Bool.and_eq_true, decide_eq_true_eq] at hdigit
    have hle : c.toNat ≤ 57 := hdigit.2
    omega
  · split at h
    · rename_i hlow
      cases h
      simp only [Bool.and_eq_true, decide_eq_true_eq] at hlow
      have hle : c.toNat ≤ 102 := hlow.2
      omega
    · split at h
      · rename_i hhigh
        cases h
        simp only [Bool.and_eq_true, decide_eq_true_eq] at hhigh
        have hle : c.toNat ≤ 70 := hhigh.2
        omega
      · cases h

/-- Hexadecimal digits have a value that their number bounds. -/
theorem baseValue_lt (cs : List Char) : baseValue 16 cs < 16 ^ cs.length := by
  have hfold : ∀ n, cs.foldl (fun n c => n * 16 + (hexDigit? c).getD 0) n
      < (n + 1) * 16 ^ cs.length := by
    induction cs with
    | nil => intro n; simp
    | cons c cs ih =>
      intro n
      have hdigit : (hexDigit? c).getD 0 < 16 := by
        cases h : hexDigit? c with
        | none => exact Nat.succ_pos _
        | some v => exact hexDigit_lt h
      rw [List.foldl_cons, List.length_cons, Nat.pow_succ', ← Nat.mul_assoc]
      refine Nat.lt_of_lt_of_le (ih _) (Nat.mul_le_mul_right _ ?_)
      omega
  have h := hfold 0
  rw [Nat.zero_add, Nat.one_mul] at h
  exact h

theorem lt_of_ipv6Group {cs : List Char} {n : Nat} (h : ipv6Group? cs = some n) : n < 0x10000 := by
  unfold ipv6Group? at h
  split at h
  · cases h
  · rename_i hlength
    split at h
    · cases h
      simp only [Bool.or_eq_true, decide_eq_true_eq, not_or, Nat.not_lt] at hlength
      exact Nat.lt_of_lt_of_le (baseValue_lt cs) (Nat.pow_le_pow_right (by omega) hlength.2)
    · cases h

theorem le_of_octet {cs : List Char} {n : Nat} (h : octet? cs = some n) : n ≤ 255 := by
  unfold octet? at h
  dsimp only at h
  split at h
  · cases h
  · split at h
    · cases h
      assumption
    · cases h

theorem lt_of_embeddedIpv4 {cs : List Char} {ns : List Nat} (h : embeddedIpv4? cs = some ns) :
    ∀ n ∈ ns, n < 0x10000 := by
  unfold embeddedIpv4? at h
  split at h
  · rename_i a b c d hoctets
    have hle : ∀ n ∈ [a, b, c, d], n ≤ 255 := by
      intro n hn
      obtain ⟨p, -, hp⟩ := exists_of_mem_right (mapM_eq_some.1 hoctets) hn
      exact le_of_octet hp
    have ha := hle a (by simp)
    have hb := hle b (by simp)
    have hc := hle c (by simp)
    have hd := hle d (by simp)
    cases h
    intro n hn
    simp only [List.mem_cons, List.not_mem_nil, or_false] at hn
    omega
  · cases h

theorem lt_of_ipv6Groups {pieces : List (List Char)} {ns : List Nat}
    (h : ipv6Groups? pieces = some ns) : ∀ n ∈ ns, n < 0x10000 := by
  induction pieces using ipv6Groups?.induct generalizing ns with
  | case1 =>
    cases h
    exact nofun
  | case2 p hdot =>
    rw [ipv6Groups?, if_pos hdot] at h
    exact lt_of_embeddedIpv4 h
  | case3 p hdot =>
    rw [ipv6Groups?, if_neg hdot] at h
    obtain ⟨n, hn, rfl⟩ := Option.map_eq_some_iff.1 h
    intro m hm
    rw [List.mem_singleton.1 hm]
    exact lt_of_ipv6Group hn
  | case4 p r hr ih =>
    rw [ipv6Groups?] at h
    · obtain ⟨n, hn, h⟩ := Option.bind_eq_some_iff.1 h
      obtain ⟨ms, hms, h⟩ := Option.bind_eq_some_iff.1 h
      cases h
      intro m hm
      rcases List.mem_cons.1 hm with rfl | hm
      · exact lt_of_ipv6Group hn
      · exact ih hms m hm
    · exact hr

theorem lt_of_ipv6Side {cs : List Char} {ns : List Nat} (h : ipv6Side? cs = some ns) :
    ∀ n ∈ ns, n < 0x10000 := by
  unfold ipv6Side? at h
  split at h
  · cases h
    exact nofun
  · exact lt_of_ipv6Groups h

/-- An IPv6 address that is read has eight groups of 16 bits. -/
theorem groups_of_readIpv6 {cs : List Char} {h : Host} (hread : readIpv6 cs = .ok h) :
    ∃ ns, Groups ns ∧ h = .ipv6 ns := by
  unfold readIpv6 at hread
  dsimp only at hread
  split at hread
  · rename_i ns hns
    refine ⟨ns, ?_, (Except.ok.inj hread).symm⟩
    split at hns
    · obtain ⟨ms, hms, hns⟩ := Option.bind_eq_some_iff.1 hns
      split at hns
      · rename_i hlength
        cases hns
        exact ⟨beq_iff_eq.1 hlength, lt_of_ipv6Side hms⟩
      · cases hns
    · obtain ⟨as, has, hns⟩ := Option.bind_eq_some_iff.1 hns
      obtain ⟨bs, hbs, hns⟩ := Option.bind_eq_some_iff.1 hns
      split at hns
      · cases hns
      · split at hns
        · cases hns
        · rename_i hlength
          cases hns
          constructor
          · simp only [List.length_append, List.length_replicate]
            omega
          · intro n hn
            simp only [List.mem_append, List.mem_replicate] at hn
            rcases hn with (hn | ⟨-, rfl⟩) | hn
            · exact lt_of_ipv6Side has n hn
            · exact Nat.succ_pos _
            · exact lt_of_ipv6Side hbs n hn
  · cases hread

/-! ## What is written -/

/-- Groups in hexadecimal between colons. -/
def groupChars (ns : List Nat) : List Char :=
  [':'].intercalate (ns.map (Nat.toDigits 16))

theorem toList_groupsText (ns : List Nat) : (groupsText ns).toList = groupChars ns := by
  unfold groupsText groupChars
  rw [String.toList_intercalate, List.map_map]
  congr 1
  exact List.map_congr_left fun n _ => String.toList_ofList

theorem of_mem_toDigits {n : Nat} {c : Char} (h : c ∈ Nat.toDigits 16 n) :
    c ∈ "0123456789abcdef".toList := by
  have all : ∀ d < 16, d.digitChar ∈ "0123456789abcdef".toList := by decide +kernel
  obtain ⟨d, hd, rfl⟩ := digit_of_mem_toDigits (by omega) h
  exact all d hd

theorem colon_not_mem_toDigits (n : Nat) : ':' ∉ Nat.toDigits 16 n := fun h =>
  absurd (of_mem_toDigits h) (by decide)

theorem dot_not_mem_toDigits (n : Nat) : '.' ∉ Nat.toDigits 16 n := fun h =>
  absurd (of_mem_toDigits h) (by decide)

/-- A group is read from its digits. -/
theorem ipv6Group_toDigits {n : Nat} (h : n < 0x10000) :
    ipv6Group? (Nat.toDigits 16 n) = some n := by
  have hlength : (Nat.toDigits 16 n).length ≤ 4 :=
    (Nat.length_toDigits_le_iff (by omega) (by omega)).2 h
  have hempty : (Nat.toDigits 16 n).isEmpty = false :=
    Bool.eq_false_iff.2 fun h => Nat.toDigits_ne_nil (List.isEmpty_iff.1 h)
  have hall : ((Nat.toDigits 16 n).all fun c => (hexDigit? c).isSome) = true := by
    rw [List.all_eq_true]
    intro c hc
    obtain ⟨d, hd, rfl⟩ := digit_of_mem_toDigits (by omega) hc
    rw [hexDigit_digitChar hd]
    rfl
  unfold ipv6Group?
  rw [hempty, hall, baseValue_toDigits (by omega) (by omega)]
  simp [Nat.not_lt.2 hlength]

theorem ipv6Groups_toDigits {ns : List Nat} (h : ∀ n ∈ ns, n < 0x10000) :
    ipv6Groups? (ns.map (Nat.toDigits 16)) = some ns := by
  induction ns with
  | nil => rfl
  | cons n ns ih =>
    have hn := ipv6Group_toDigits (h n (List.mem_cons_self ..))
    have hrest := ih fun m hm => h m (List.mem_cons_of_mem _ hm)
    cases ns with
    | nil =>
      show (if (Nat.toDigits 16 n).contains '.' then _ else (ipv6Group? (Nat.toDigits 16 n)).map _)
        = some [n]
      rw [if_neg (by simpa using dot_not_mem_toDigits n), hn]
      rfl
    | cons m ns =>
      rw [List.map_cons, ipv6Groups?, hn, hrest]
      · rfl
      · exact nofun

theorem groupChars_cons_cons (n m : Nat) (ns : List Nat) :
    groupChars (n :: m :: ns) = Nat.toDigits 16 n ++ ':' :: groupChars (m :: ns) := by
  unfold groupChars
  rw [List.map_cons, List.map_cons, List.intercalate_cons_cons, List.append_assoc]
  rfl

/-- Groups start with a digit. -/
theorem groupChars_head (n : Nat) (ns : List Nat) :
    ∃ c cs, groupChars (n :: ns) = c :: cs ∧ c ≠ ':' := by
  obtain ⟨c, cs, hcs⟩ := List.exists_cons_of_ne_nil (Nat.toDigits_ne_nil (n := n) (b := 16))
  have hc : c ≠ ':' := fun e => colon_not_mem_toDigits n (by rw [hcs, e]; exact List.mem_cons_self ..)
  cases ns with
  | nil =>
    refine ⟨c, cs, ?_, hc⟩
    rw [← hcs]
    exact List.intercalate_singleton
  | cons m ns =>
    refine ⟨c, cs ++ ':' :: groupChars (m :: ns), ?_, hc⟩
    rw [groupChars_cons_cons, hcs]
    rfl

/-- A side of a gap is read from its groups. -/
theorem ipv6Side_groupChars {ns : List Nat} (h : ∀ n ∈ ns, n < 0x10000) :
    ipv6Side? (groupChars ns) = some ns := by
  cases ns with
  | nil => rfl
  | cons n ns =>
    have hsplit : (groupChars (n :: ns)).splitOn ':' = (n :: ns).map (Nat.toDigits 16) := by
      refine List.splitOn_intercalate ':' (fun l hl => ?_) (List.cons_ne_nil _ _)
      obtain ⟨m, -, rfl⟩ := List.mem_map.1 hl
      exact colon_not_mem_toDigits m
    obtain ⟨c, cs, hcs, -⟩ := groupChars_head n ns
    unfold ipv6Side?
    rw [hsplit, ipv6Groups_toDigits h, hcs]
    rfl

/-! ## The gap -/

theorem cutGap_append {cs : List Char} (h : ':' ∉ cs) (r : List Char) :
    cutGap? (cs ++ r) = (cutGap? r).map fun p => (cs ++ p.1, p.2) := by
  induction cs with
  | nil =>
    show cutGap? r = (cutGap? r).map id
    rw [Option.map_id, id]
  | cons c cs ih =>
    have hc : c ≠ ':' := fun e => h (e ▸ List.mem_cons_self ..)
    rw [List.cons_append, cutGap?]
    · rw [ih fun hmem => h (List.mem_cons_of_mem _ hmem), Option.map_map]
      rfl
    · exact fun _ e _ => hc e

/-- There is no gap within groups. -/
theorem cutGap_groupChars (ns : List Nat) (r : List Char) :
    cutGap? (groupChars ns ++ r) = (cutGap? r).map fun p => (groupChars ns ++ p.1, p.2) := by
  induction ns with
  | nil =>
    show cutGap? r = (cutGap? r).map id
    rw [Option.map_id, id]
  | cons n ns ih =>
    cases ns with
    | nil =>
      have hone : groupChars [n] = Nat.toDigits 16 n := List.intercalate_singleton
      rw [hone]
      exact cutGap_append (colon_not_mem_toDigits n) r
    | cons m ns =>
      obtain ⟨c, cs, hcs, hc⟩ := groupChars_head m ns
      have hcolon : ∀ s : List Char, cutGap? (':' :: (groupChars (m :: ns) ++ s))
          = (cutGap? (groupChars (m :: ns) ++ s)).map fun p => (':' :: p.1, p.2) := by
        intro s
        rw [hcs, List.cons_append, cutGap?]
        intro _ _ h
        exact hc (List.cons.inj h).1
      rw [groupChars_cons_cons, List.append_assoc, cutGap_append (colon_not_mem_toDigits n),
        List.cons_append, hcolon, ih, Option.map_map, Option.map_map]
      congr 1
      funext p
      simp

theorem of_mem_groupChars {ns : List Nat} {c : Char} (h : c ∈ groupChars ns) :
    c ∈ ":0123456789abcdef".toList := by
  rcases mem_intercalate h with rfl | ⟨p, hp, hc⟩
  · exact List.mem_cons_self ..
  · obtain ⟨n, -, rfl⟩ := List.mem_map.1 hp
    exact List.mem_cons_of_mem _ (of_mem_toDigits hc)

/-- The run that is left out is one of the runs of zeros, and of at least two. -/
theorem run_of_longestZeroRun {ns : List Nat} {r : Nat × Nat} (h : longestZeroRun ns = some r) :
    r.2 = zeroRun (ns.drop r.1) ∧ 2 ≤ r.2 ∧ r.1 < ns.length := by
  unfold longestZeroRun at h
  dsimp only at h
  refine List.foldlRecOn _ _ (motive := fun best => ∀ r, best = some r →
    r.2 = zeroRun (ns.drop r.1) ∧ 2 ≤ r.2 ∧ r.1 < ns.length) nofun ?_ r h
  intro best hbest r hr s hs
  obtain ⟨i, hi, rfl⟩ := List.mem_map.1 hr
  dsimp only at hs
  split at hs
  · exact hbest s hs
  · rename_i hlong
    have hrun : zeroRun (ns.drop i) = zeroRun (ns.drop i) ∧ 2 ≤ zeroRun (ns.drop i)
        ∧ i < ns.length := ⟨rfl, Nat.not_lt.1 hlong, List.mem_range.1 hi⟩
    split at hs
    · split at hs
      · cases hs
        exact hrun
      · exact hbest s hs
    · cases hs
      exact hrun

/-- What is left out is zeros. -/
theorem zeros_of_longestZeroRun {ns : List Nat} {i k : Nat}
    (h : longestZeroRun ns = some (i, k)) : i + k ≤ ns.length ∧ 2 ≤ k
      ∧ ns = ns.take i ++ List.replicate k 0 ++ ns.drop (i + k) := by
  obtain ⟨hrun, hk, hi⟩ := run_of_longestZeroRun h
  dsimp only at hi hrun hk
  have htake : (ns.drop i).takeWhile (· == 0) = List.replicate k 0 := by
    rw [List.eq_replicate_iff]
    exact ⟨hrun.symm, fun n hn => beq_iff_eq.1 (List.all_eq_true.1 List.all_takeWhile n hn)⟩
  obtain ⟨rest, hrest⟩ : List.replicate k 0 <+: ns.drop i := htake ▸ List.takeWhile_prefix _
  have hdrop : ns.drop (i + k) = rest := by
    rw [← List.drop_drop, ← hrest, List.drop_left' (List.length_replicate)]
  have hlength := congrArg List.length hrest
  simp only [List.length_append, List.length_replicate, List.length_drop] at hlength
  refine ⟨by omega, hk, ?_⟩
  rw [hdrop, List.append_assoc, hrest, List.take_append_drop]

/-- Groups are read from the text that writes them. -/
theorem readIpv6_text {ns : List Nat} (h : Groups ns) :
    readIpv6 (ipv6Text ns).toList = .ok (.ipv6 ns) := by
  unfold readIpv6 ipv6Text
  dsimp only
  cases hrun : longestZeroRun ns with
  | none =>
    have hgap := cutGap_groupChars ns []
    rw [List.append_nil] at hgap
    dsimp only
    rw [toList_groupsText, hgap, ipv6Side_groupChars h.small]
    simp [cutGap?, h.eight]
  | some p =>
    obtain ⟨i, k⟩ := p
    obtain ⟨hi, hk, hzeros⟩ := zeros_of_longestZeroRun hrun
    rw [h.eight] at hi
    have hfirst := ipv6Side_groupChars fun n hn => h.small n (List.mem_of_mem_take (i := i) hn)
    have hsecond := ipv6Side_groupChars fun n hn => h.small n (List.mem_of_mem_drop (i := i + k) hn)
    have htext : (groupsText (ns.take i) ++ "::" ++ groupsText (ns.drop (i + k))).toList
        = groupChars (ns.take i) ++ ':' :: ':' :: groupChars (ns.drop (i + k)) := by
      rw [String.toList_append, String.toList_append, toList_groupsText, toList_groupsText,
        List.append_assoc]
      rfl
    have hgap : cutGap? (groupChars (ns.take i) ++ ':' :: ':' :: groupChars (ns.drop (i + k)))
        = some (groupChars (ns.take i), groupChars (ns.drop (i + k))) := by
      rw [cutGap_groupChars, cutGap?, Option.map_some, List.append_nil]
    have hend : cutGap? (groupChars (ns.drop (i + k))) = none := by
      have hend := cutGap_groupChars (ns.drop (i + k)) []
      rwa [List.append_nil] at hend
    have hdot : (groupChars (ns.take i)).contains '.' = false := by
      rw [Bool.eq_false_iff, Ne, List.contains_iff_mem]
      exact fun hmem => absurd (of_mem_groupChars hmem) (by decide)
    have hleft : (ns.take i).length = i := by
      rw [List.length_take, h.eight]
      omega
    have hright : (ns.drop (i + k)).length = 8 - (i + k) := by
      rw [List.length_drop, h.eight]
    have hrest : 8 - i - (8 - (i + k)) = k := by omega
    dsimp only
    rw [htext, hgap]
    dsimp only
    rw [hfirst, hsecond, hend, hdot]
    simp only [Option.bind_eq_bind, Option.bind_some, hleft, hright, hrest, Option.isSome_none,
      Bool.or_self, Bool.false_eq_true, if_false]
    rw [if_neg (by omega), ← hzeros]

end Glasshouse.Url
