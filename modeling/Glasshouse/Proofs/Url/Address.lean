/-
Glasshouse.Proofs.Url.Address — addresses in normal form, part by part: what
reading yields is normal, and the text of a normal address is read as that
address. Reading its own text therefore changes nothing. Main statements:
`Url.normal_of_read`, `Url.read_text`.
-/
import Glasshouse.Proofs.Url.Hosts

namespace Glasshouse.Url

/-! ## Paths -/

/-- A segment of a path in normal form. -/
structure Segment (s : String) : Prop where
  keeps : Area.path.Keeps s.toList
  noSlash : '/' ∉ s.toList
  noBackslash : '\\' ∉ s.toList
  noDot : isDot s = false
  noDotDot : isDotDot s = false

theorem segment_empty : Segment "" where
  keeps := nofun
  noSlash := nofun
  noBackslash := nofun
  noDot := by decide +kernel
  noDotDot := by decide +kernel

theorem mem_encode {a : Area} {cs : List Char} {c : Char} (h : c ∈ encode a cs) :
    c ∈ cs ∨ c = '%' ∨ c ∈ "0123456789ABCDEF".toList := by
  obtain ⟨d, hd, hc⟩ := List.mem_flatMap.1 h
  unfold encodeChar at hc
  split at hc
  · obtain ⟨b, -, hb⟩ := List.mem_flatMap.1 hc
    exact .inr (digits_of_escapeByte b c hb)
  · rw [List.mem_singleton.1 hc]
    exact .inl hd

/-- Resolving dots keeps segments that are none, and adds only empty ones. -/
theorem segment_of_mem_resolve {done segments : List String} (hdone : ∀ s ∈ done, Segment s)
    (hsegments : ∀ s ∈ segments, isDot s = false → isDotDot s = false → Segment s) :
    ∀ s ∈ resolve done segments, Segment s := by
  have hempty : ∀ done : List String, (∀ s ∈ done, Segment s) →
      ∀ s ∈ ("" :: done).reverse, Segment s := by
    intro done hdone s hs
    rcases List.mem_cons.1 (List.mem_reverse.1 hs) with rfl | hs
    · exact segment_empty
    · exact hdone s hs
  have htail : ∀ s ∈ done.drop 1, Segment s := fun s hs => hdone s (List.mem_of_mem_drop hs)
  induction segments generalizing done with
  | nil => exact fun s hs => hdone s (List.mem_reverse.1 hs)
  | cons t r ih =>
    have hrest : ∀ s ∈ r, isDot s = false → isDotDot s = false → Segment s :=
      fun s hs => hsegments s (List.mem_cons_of_mem _ hs)
    unfold resolve
    dsimp only
    split
    · split
      · exact hempty _ htail
      · exact ih htail hrest fun s hs => htail s (List.mem_of_mem_drop hs)
    · rename_i hup
      split
      · split
        · exact hempty _ hdone
        · exact ih hdone hrest htail
      · rename_i hdot
        have ht : Segment t := hsegments t (List.mem_cons_self ..) (Bool.eq_false_iff.2 hdot)
          (Bool.eq_false_iff.2 hup)
        refine ih ?_ hrest hdone
        intro s hs
        rcases List.mem_cons.1 hs with rfl | hs
        · exact ht
        · exact hdone s hs

theorem resolve_ne_nil {done segments : List String} (h : segments ≠ []) :
    resolve done segments ≠ [] := by
  induction segments generalizing done with
  | nil => exact absurd rfl h
  | cons t r ih =>
    have hnext : ∀ done, r ≠ [] → resolve done r ≠ [] := fun done hr => ih hr
    unfold resolve
    dsimp only
    split
    · split
      · simp
      · rename_i hr
        exact hnext _ (by simpa using hr)
    · split
      · split
        · simp
        · rename_i hr
          exact hnext _ (by simpa using hr)
      · cases r with
        | nil => simp [resolve]
        | cons u r => exact hnext _ nofun

/-- Without dots nothing is resolved. -/
theorem resolve_of_segments {done segments : List String} (h : ∀ s ∈ segments, Segment s) :
    resolve done segments = done.reverse ++ segments := by
  induction segments generalizing done with
  | nil => simp [resolve]
  | cons t r ih =>
    have ht := h t (List.mem_cons_self ..)
    have hstep : resolve done (t :: r) = resolve (t :: done) r := by
      rw [resolve, ht.noDotDot, ht.noDot]
      rfl
    rw [hstep, ih fun s hs => h s (List.mem_cons_of_mem _ hs), List.reverse_cons,
      List.append_assoc, List.singleton_append]

/-- The path of characters is that of a text without backslashes. -/
theorem readPath_eq (cs : List Char) : ∃ body : List Char, '\\' ∉ body ∧ readPath cs
    = resolve [] ((body.splitOn '/').map fun s => String.ofList (encode .path s)) := by
  have hmap : '\\' ∉ cs.map fun c => if c == '\\' then '/' else c := by
    intro h
    obtain ⟨c, -, hc⟩ := List.mem_map.1 h
    split at hc
    · cases hc
    · rename_i hne
      exact hne (beq_iff_eq.2 hc)
  refine ⟨_, ?_, rfl⟩
  split
  · rename_i r hr
    rw [hr] at hmap
    exact fun h => hmap (List.mem_cons_of_mem _ h)
  · exact hmap

/-- A path that is read is in normal form. -/
theorem segments_readPath (cs : List Char) : readPath cs ≠ [] ∧ ∀ s ∈ readPath cs, Segment s := by
  obtain ⟨body, hbackslash, hread⟩ := readPath_eq cs
  rw [hread]
  constructor
  · exact resolve_ne_nil (by simp)
  · refine segment_of_mem_resolve nofun ?_
    intro s hs hdot hup
    obtain ⟨piece, hpiece, rfl⟩ := List.mem_map.1 hs
    obtain ⟨hslash, hmem⟩ := of_mem_splitOn hpiece
    have hencoded : ∀ c, c ∈ (String.ofList (encode .path piece)).toList →
        c ∈ piece ∨ c = '%' ∨ c ∈ "0123456789ABCDEF".toList := by
      intro c hc
      rw [String.toList_ofList] at hc
      exact mem_encode hc
    refine ⟨?_, ?_, ?_, hdot, hup⟩
    · rw [String.toList_ofList]
      exact keeps_encode .path piece
    · intro h
      rcases hencoded _ h with h | h | h
      · exact hslash h
      · cases h
      · exact absurd h (by decide)
    · intro h
      rcases hencoded _ h with h | h | h
      · exact hbackslash (hmem _ h)
      · cases h
      · exact absurd h (by decide)

/-- The characters of a path. -/
def pathChars (segments : List String) : List Char :=
  segments.flatMap fun s => '/' :: s.toList

theorem splitOn_pathChars {s : String} {r : List String} (h : ∀ t ∈ s :: r, Segment t) :
    (s.toList ++ pathChars r).splitOn '/' = (s :: r).map String.toList := by
  have hs := (h s (List.mem_cons_self ..)).noSlash
  induction r generalizing s with
  | nil =>
    rw [pathChars, List.flatMap_nil, List.append_nil, List.splitOn_eq_singleton hs]
    rfl
  | cons t r ih =>
    have hr : ∀ u ∈ t :: r, Segment u := fun u hu => h u (List.mem_cons_of_mem _ hu)
    have htail : pathChars (t :: r) = '/' :: (t.toList ++ pathChars r) := rfl
    rw [htail, List.splitOn_append_cons_self_of_not_mem hs,
      ih hr (hr t (List.mem_cons_self ..)).noSlash]
    rfl

/-- A path in normal form is read as itself. -/
theorem readPath_pathChars {segments : List String} (hne : segments ≠ [])
    (h : ∀ s ∈ segments, Segment s) : readPath (pathChars segments) = segments := by
  have hmap : (pathChars segments).map (fun c => if c == '\\' then '/' else c)
      = pathChars segments := by
    refine (List.map_congr_left fun c hc => ?_).trans (List.map_id _)
    obtain ⟨s, hs, hmem⟩ := List.mem_flatMap.1 hc
    refine if_neg fun hb => ?_
    rw [beq_iff_eq.1 hb, List.mem_cons] at hmem
    rcases hmem with hmem | hmem
    · cases hmem
    · exact (h s hs).noBackslash hmem
  obtain ⟨s, r, rfl⟩ := List.exists_cons_of_ne_nil hne
  have hencode : ((s :: r).map String.toList).map (fun t => String.ofList (encode .path t))
      = s :: r := by
    rw [List.map_map]
    refine (List.map_congr_left fun t ht => ?_).trans (List.map_id _)
    show String.ofList (encode .path t.toList) = t
    rw [encode_of_keeps (h t ht).keeps, String.ofList_toList]
  unfold readPath
  rw [hmap]
  show resolve [] (((s.toList ++ pathChars r).splitOn '/').map _) = _
  rw [splitOn_pathChars h, hencode, resolve_of_segments h]
  rfl

/-! ## Queries and fragments -/

/-- The characters of a part that may be missing, behind its mark. -/
def marked (mark : Char) : Option String → List Char
  | none => []
  | some s => mark :: s.toList

/-- A part that may be missing, in normal form. -/
def Area.KeepsAll (a : Area) (part : Option String) : Prop :=
  ∀ s, part = some s → a.Keeps s.toList

/-- Path, query and fragment that are read are in normal form. -/
theorem normal_readTail (cs : List Char) :
    ((readTail cs).1 ≠ [] ∧ ∀ s ∈ (readTail cs).1, Segment s)
      ∧ Area.query.KeepsAll (readTail cs).2.1 ∧ Area.fragment.KeepsAll (readTail cs).2.2 := by
  have hquery : ∀ cs : List Char, Area.query.Keeps (String.ofList (encode .query cs)).toList := by
    intro cs
    rw [String.toList_ofList]
    exact keeps_encode _ cs
  have hfragment : ∀ cs : List Char,
      Area.fragment.Keeps (String.ofList (encode .fragment cs)).toList := by
    intro cs
    rw [String.toList_ofList]
    exact keeps_encode _ cs
  refine ⟨segments_readPath _, ?_, ?_⟩
  · unfold readTail
    dsimp only
    intro s hs
    split at hs
    · cases hs
      exact hquery _
    · cases hs
  · unfold readTail
    dsimp only
    intro s hs
    split at hs
    · cases hs
      exact hfragment _
    · cases hs

/-- What stands behind a path and its mark is a query, up to the mark of a fragment. -/
theorem readTail_query {path query rest : List Char}
    (hpath : ∀ c ∈ path, (c != '?' && c != '#') = true) (hquery : ∀ c ∈ query, (c != '#') = true)
    (hrest : ∀ c, rest.head? = some c → (c != '#') = false) :
    readTail (path ++ '?' :: (query ++ rest))
      = (readPath path, some (String.ofList (encode .query query)),
        rest.tail?.map fun r => String.ofList (encode .fragment r)) := by
  have hmark : ∀ c, ('?' :: (query ++ rest)).head? = some c → (c != '?' && c != '#') = false := by
    intro c hc
    cases hc
    rfl
  obtain ⟨htake, hdrop⟩ := while_append hpath hmark
  obtain ⟨htakeQuery, hdropQuery⟩ := while_append hquery hrest
  unfold readTail
  dsimp only
  rw [htake, hdrop]
  split
  · rename_i r hr
    cases hr
    rw [htakeQuery, hdropQuery]
    cases rest with
    | nil => rfl
    | cons c r =>
      obtain rfl : c = '#' := by simpa using hrest c rfl
      rfl
  · rename_i hr
    exact absurd rfl (hr _)

/-- Path, query and fragment in normal form are read as themselves. -/
theorem readTail_chars {path : List String} {query fragment : Option String} (hne : path ≠ [])
    (hpath : ∀ s ∈ path, Segment s) (hquery : Area.query.KeepsAll query)
    (hfragment : Area.fragment.KeepsAll fragment) :
    readTail (pathChars path ++ (marked '?' query ++ marked '#' fragment))
      = (path, query, fragment) := by
  have hplain : ∀ c ∈ pathChars path, (c != '?' && c != '#') = true := by
    intro c hc
    obtain ⟨s, hs, hmem⟩ := List.mem_flatMap.1 hc
    rcases List.mem_cons.1 hmem with rfl | hmem
    · rfl
    · have hkeeps := (hpath s hs).keeps
      rw [Bool.and_eq_true, bne_iff_ne, bne_iff_ne]
      exact ⟨fun h => hkeeps.not_mem (by decide) (h ▸ hmem),
        fun h => hkeeps.not_mem (by decide) (h ▸ hmem)⟩
  have hmark : ∀ c, (marked '#' fragment).head? = some c → c = '#' := by
    intro c hc
    cases fragment with
    | some f =>
      cases hc
      rfl
    | none => cases hc
  have hread : (marked '#' fragment).tail?.map (fun r => String.ofList (encode .fragment r))
      = fragment := by
    cases fragment with
    | none => rfl
    | some f =>
      show some (String.ofList (encode .fragment f.toList)) = some f
      rw [encode_of_keeps (hfragment f rfl), String.ofList_toList]
  cases query with
  | some q =>
    have hq : ∀ c ∈ q.toList, (c != '#') = true := fun c hc =>
      bne_iff_ne.2 fun h => (hquery q rfl).not_mem (by decide) (h ▸ hc)
    refine (readTail_query hplain hq fun c hc => by rw [hmark c hc]; rfl).trans ?_
    rw [readPath_pathChars hne hpath, encode_of_keeps (hquery q rfl), String.ofList_toList, hread]
  | none =>
    obtain ⟨htake, hdrop⟩ := while_append hplain
      fun c (hc : (marked '#' fragment).head? = some c) => by rw [hmark c hc]; rfl
    rw [show marked '?' none ++ marked '#' fragment = marked '#' fragment from rfl]
    unfold readTail
    dsimp only
    rw [htake, hdrop, readPath_pathChars hne hpath]
    cases fragment with
    | none => rfl
    | some f => exact congrArg (fun f => (path, none, f)) hread

/-! ## Users and ports -/

/-- The characters of a user and a password. -/
def userChars (user password : String) : List Char :=
  user.toList ++ if password.isEmpty then [] else ':' :: password.toList

theorem keeps_readUser (cs : List Char) : Area.userinfo.Keeps (readUser cs).1.toList
    ∧ Area.userinfo.Keeps (readUser cs).2.toList := by
  unfold readUser
  simp only [String.toList_ofList]
  exact ⟨keeps_encode _ _, keeps_encode _ _⟩

/-- A user and a password in normal form are read as themselves. -/
theorem readUser_chars {user password : String} (hu : Area.userinfo.Keeps user.toList)
    (hp : Area.userinfo.Keeps password.toList) :
    readUser (userChars user password) = (user, password) := by
  have hcolon : ∀ c ∈ user.toList, (c != ':') = true := fun c hc =>
    bne_iff_ne.2 fun h => hu.not_mem (by decide) (h ▸ hc)
  have hend : ∀ c, (if password.isEmpty then [] else ':' :: password.toList).head? = some c →
      (c != ':') = false := by
    intro c hc
    split at hc
    · cases hc
    · cases hc
      rfl
  obtain ⟨htake, hdrop⟩ := while_append hcolon hend
  unfold readUser userChars
  dsimp only
  rw [htake, hdrop, encode_of_keeps hu, String.ofList_toList]
  split
  · rename_i hempty
    rw [String.isEmpty_iff.1 hempty]
    rfl
  · rw [List.drop_one, List.tail_cons, encode_of_keeps hp, String.ofList_toList]

/-- The characters of a port behind its colon. -/
def portChars : Option Nat → List Char
  | none => []
  | some p => ':' :: Nat.toDigits 10 p

/-- A port in normal form: in range, and not the one that the scheme has anyway. -/
def PortNormal (scheme : String) (port : Option Nat) : Prop :=
  ∀ p, port = some p → p ≤ 65535 ∧ (defaultPorts.lookup scheme == some p) = false

theorem portNormal_of_read {scheme : String} {cs : List Char} {port : Option Nat}
    (h : readPort scheme cs = .ok port) : PortNormal scheme port := by
  unfold readPort at h
  split at h
  · cases h
    exact nofun
  · split at h
    · cases h
    · split at h
      · cases h
        exact nofun
      · dsimp only at h
        split at h
        · cases h
        · rename_i hrange
          split at h
          · cases h
            exact nofun
          · rename_i hdefault
            cases h
            intro p hp
            cases hp
            exact ⟨Nat.not_lt.1 hrange, Bool.eq_false_iff.2 hdefault⟩

/-- A port in normal form is read as itself. -/
theorem readPort_chars {scheme : String} {port : Option Nat} (h : PortNormal scheme port) :
    readPort scheme (portChars port) = .ok port := by
  cases port with
  | none => rfl
  | some p =>
    obtain ⟨hrange, hdefault⟩ := h p rfl
    have hdigits : (Nat.toDigits 10 p).all Char.isDigit = true :=
      List.all_eq_true.2 fun c hc => Nat.isDigit_of_mem_toDigits (by omega) (by omega) hc
    have hempty : (Nat.toDigits 10 p).isEmpty = false :=
      Bool.eq_false_iff.2 fun h => Nat.toDigits_ne_nil (List.isEmpty_iff.1 h)
    show readPort scheme (':' :: Nat.toDigits 10 p) = _
    unfold readPort
    dsimp only
    rw [hdigits, hempty, digitsValue_toDigits, hdefault]
    simp [Nat.not_lt.2 hrange]

/-! ## Authorities -/

/-- The text before the last `@` and the text behind it. -/
theorem splitAtSign_append {user place : List Char} (h : '@' ∉ place) :
    splitAtSign (user ++ '@' :: place) = (some user, place) := by
  have hplace : ∀ c ∈ place.reverse, (c != '@') = true := fun c hc =>
    bne_iff_ne.2 fun e => h (e ▸ List.mem_reverse.1 hc)
  have hbehind : ((user ++ '@' :: place).reverse.takeWhile (· != '@')).reverse = place := by
    rw [List.reverse_append, List.reverse_cons, List.append_assoc,
      List.takeWhile_append_of_pos hplace]
    simp
  unfold splitAtSign
  rw [if_pos (by simp)]
  dsimp only
  rw [hbehind, List.length_append, List.length_cons, Nat.sub_sub, Nat.add_sub_cancel,
    List.take_left]

theorem splitAtSign_of_not_mem {place : List Char} (h : '@' ∉ place) :
    splitAtSign place = (none, place) := by
  unfold splitAtSign
  rw [if_neg (by simpa using h)]

theorem portChars_plain (port : Option Nat) : ∀ c ∈ portChars port,
    0x20 < c.toNat ∧ c.toNat < 0x7F ∧ endsAuthority c = false ∧ c ≠ '@' := by
  have all : ∀ d < 10, 0x20 < d.digitChar.toNat ∧ d.digitChar.toNat < 0x7F
      ∧ endsAuthority d.digitChar = false ∧ d.digitChar ≠ '@' := by
    decide +kernel
  intro c hc
  cases port with
  | none => cases hc
  | some p =>
    rcases List.mem_cons.1 hc with rfl | hc
    · decide +kernel
    · obtain ⟨d, hd, rfl⟩ := digit_of_mem_toDigits (by omega) hc
      exact all d hd

/-! ## Addresses -/

/-- An address in normal form. -/
structure Normal (u : Url) : Prop where
  scheme : u.scheme = "http" ∨ u.scheme = "https"
  user : Area.userinfo.Keeps u.user.toList
  password : Area.userinfo.Keeps u.password.toList
  host : u.host.Normal
  port : PortNormal u.scheme u.port
  filled : u.path ≠ []
  path : ∀ s ∈ u.path, Segment s
  query : Area.query.KeepsAll u.query
  fragment : Area.fragment.KeepsAll u.fragment

theorem normal_of_readAfterSlashes {scheme : String} {cs : List Char} {u : Url}
    (hscheme : scheme = "http" ∨ scheme = "https") (h : readAfterSlashes scheme cs = .ok u) :
    u.Normal := by
  unfold readAfterSlashes at h
  dsimp only at h
  split at h
  · cases h
  · obtain ⟨host, hhost, h⟩ := bind_eq_ok.1 h
    obtain ⟨port, hport, h⟩ := bind_eq_ok.1 h
    cases h
    obtain ⟨⟨hfilled, hpath⟩, hquery, hfragment⟩ := normal_readTail
      (cs.dropWhile fun c => !endsAuthority c)
    obtain ⟨huser, hpassword⟩ := keeps_readUser
      ((splitAtSign (cs.takeWhile fun c => !endsAuthority c)).1.getD [])
    exact ⟨hscheme, huser, hpassword, Host.normal_of_read hhost, portNormal_of_read hport, hfilled,
      hpath, hquery, hfragment⟩

/-- An address that is read is in normal form. -/
theorem normal_of_read {s : String} {u : Url} (h : read s = .ok (some u)) : u.Normal := by
  unfold read at h
  split at h
  · cases h
  · split at h
    · cases h
    · split at h
      · rename_i scheme r _ hscheme
        obtain ⟨v, hv, hu⟩ := map_eq_ok.1 h
        cases hu
        rw [Bool.or_eq_true, beq_iff_eq, beq_iff_eq] at hscheme
        exact normal_of_readAfterSlashes hscheme hv
      · split at h
        · obtain ⟨v, -, hu⟩ := map_eq_ok.1 h
          cases hu
        · cases h

/-- The characters of the user and the password before the host. -/
def loginChars (u : Url) : List Char :=
  if u.user.isEmpty && u.password.isEmpty then [] else userChars u.user u.password ++ ['@']

/-- The characters of host and port. -/
def placeChars (u : Url) : List Char :=
  u.host.text.toList ++ portChars u.port

/-- The characters of the address behind its authority. -/
def tailChars (u : Url) : List Char :=
  pathChars u.path ++ (marked '?' u.query ++ marked '#' u.fragment)

theorem toList_text (u : Url) : u.text.toList
    = u.scheme.toList ++ ':' :: '/' :: '/' :: (u.loginChars ++ u.placeChars ++ u.tailChars) := by
  have hlogin : (if u.user.isEmpty && u.password.isEmpty then ""
      else u.user ++ (if u.password.isEmpty then "" else ":" ++ u.password) ++ "@").toList
      = u.loginChars := by
    unfold loginChars userChars
    split
    · rfl
    · rw [String.toList_append, String.toList_append]
      split
      · rfl
      · rw [String.toList_append]
        rfl
  have hport : ((u.port.map fun p => s!":{p}").getD "").toList = portChars u.port := by
    cases u.port with
    | none => rfl
    | some p => simp [portChars, toString]
  have hpath : (String.join (u.path.map fun s => "/" ++ s)).toList = pathChars u.path := by
    rw [String.toList_join, pathChars, List.flatMap_map]
    simp
  have hquery : ((u.query.map fun q => "?" ++ q).getD "").toList = marked '?' u.query := by
    cases u.query with
    | none => rfl
    | some q => simp [marked]
  have hfragment : ((u.fragment.map fun f => "#" ++ f).getD "").toList = marked '#' u.fragment := by
    cases u.fragment with
    | none => rfl
    | some f => simp [marked]
  unfold text placeChars tailChars
  dsimp only
  simp only [String.toList_append, hlogin, hport, hpath, hquery, hfragment, List.append_assoc]
  rfl

theorem placeChars_plain {u : Url} (h : u.Normal) : ∀ c ∈ u.placeChars,
    0x20 < c.toNat ∧ c.toNat < 0x7F ∧ endsAuthority c = false ∧ c ≠ '@' := by
  intro c hc
  rcases List.mem_append.1 hc with hc | hc
  · exact h.host.plain c hc
  · exact portChars_plain u.port c hc

theorem Area.Keeps.login_plain {cs : List Char} (h : Area.userinfo.Keeps cs) {c : Char}
    (hc : c ∈ cs) : 0x20 < c.toNat ∧ c.toNat < 0x7F ∧ endsAuthority c = false := by
  refine ⟨(h.printable c hc).1, (h.printable c hc).2, ?_⟩
  have hends : ∀ d ∈ ['/', '?', '#', '\\'], Area.userinfo.mustEscape d = true :=
    List.all_iff_forall_prop.1 (by decide +kernel)
  rw [Bool.eq_false_iff]
  intro he
  simp only [endsAuthority, Bool.or_eq_true, beq_iff_eq] at he
  refine h.not_mem (hends c ?_) hc
  simpa [or_assoc] using he

theorem loginChars_plain {u : Url} (h : u.Normal) : ∀ c ∈ u.loginChars,
    0x20 < c.toNat ∧ c.toNat < 0x7F ∧ endsAuthority c = false := by
  intro c hc
  unfold loginChars userChars at hc
  split at hc
  · cases hc
  · rw [List.mem_append, List.mem_append, List.mem_singleton] at hc
    rcases hc with (hc | hc) | rfl
    · exact h.user.login_plain hc
    · split at hc
      · cases hc
      · rcases List.mem_cons.1 hc with rfl | hc
        · decide +kernel
        · exact h.password.login_plain hc
    · decide +kernel

/-- Nothing ends the authority within it. -/
theorem authority_plain {u : Url} (h : u.Normal) : ∀ c ∈ u.loginChars ++ u.placeChars,
    0x20 < c.toNat ∧ endsAuthority c = false := by
  intro c hc
  rcases List.mem_append.1 hc with hc | hc
  · exact ⟨(loginChars_plain h c hc).1, (loginChars_plain h c hc).2.2⟩
  · exact ⟨(placeChars_plain h c hc).1, (placeChars_plain h c hc).2.2.1⟩

/-- User, password and place are taken apart again. -/
theorem splitAtSign_chars {u : Url} (h : u.Normal) :
    (splitAtSign (u.loginChars ++ u.placeChars)).2 = u.placeChars
      ∧ readUser ((splitAtSign (u.loginChars ++ u.placeChars)).1.getD []) = (u.user, u.password) := by
  have hplace : '@' ∉ u.placeChars := fun hc => (placeChars_plain h _ hc).2.2.2 rfl
  unfold loginChars
  split
  · rename_i hempty
    rw [Bool.and_eq_true, String.isEmpty_iff, String.isEmpty_iff] at hempty
    rw [List.nil_append, splitAtSign_of_not_mem hplace, hempty.1, hempty.2]
    exact ⟨rfl, rfl⟩
  · rw [List.append_assoc, List.singleton_append, splitAtSign_append hplace]
    exact ⟨rfl, readUser_chars h.user h.password⟩

/-- An address in normal form is read from its own characters. -/
theorem readAfterSlashes_chars {u : Url} (h : u.Normal) :
    readAfterSlashes u.scheme (u.loginChars ++ u.placeChars ++ u.tailChars) = .ok u := by
  have hauthority : ∀ c ∈ u.loginChars ++ u.placeChars, (!endsAuthority c) = true :=
    fun c hc => by rw [(authority_plain h c hc).2]; rfl
  have htail : ∀ c, u.tailChars.head? = some c → (!endsAuthority c) = false := by
    intro c hc
    obtain ⟨s, r, hpath⟩ := List.exists_cons_of_ne_nil h.filled
    unfold tailChars at hc
    rw [hpath] at hc
    cases hc
    decide +kernel
  obtain ⟨htake, hdrop⟩ := while_append hauthority htail
  obtain ⟨hplace, huser⟩ := splitAtSign_chars h
  have hcolon : ∀ c, (portChars u.port).head? = some c → c = ':' := by
    intro c hc
    cases hp : u.port with
    | none =>
      rw [hp] at hc
      cases hc
    | some p =>
      rw [hp] at hc
      cases hc
      rfl
  have hhost : takeHost false u.placeChars = (u.host.text.toList, portChars u.port) :=
    h.host.stands _ hcolon
  have hfilled : u.host.text.toList.isEmpty = false :=
    Bool.eq_false_iff.2 fun he => h.host.filled (List.isEmpty_iff.1 he)
  unfold readAfterSlashes
  dsimp only
  rw [htake, hdrop, hplace, hhost]
  dsimp only
  rw [hfilled, if_neg Bool.false_ne_true, h.host.reads]
  have htail : readTail u.tailChars = (u.path, u.query, u.fragment) :=
    readTail_chars h.filled h.path h.query h.fragment
  rw [readPort_chars h.port, huser, htail]
  rfl

theorem tailChars_plain {u : Url} (h : u.Normal) :
    ∀ c ∈ u.tailChars, 0x20 < c.toNat ∧ c.toNat < 0x7F := by
  have hmarked : ∀ {a : Area} {mark : Char} {part : Option String},
      (0x20 < mark.toNat ∧ mark.toNat < 0x7F) → a.KeepsAll part →
      ∀ c ∈ marked mark part, 0x20 < c.toNat ∧ c.toNat < 0x7F := by
    intro a mark part hmark hkeeps c hc
    cases part with
    | none => cases hc
    | some s =>
      rcases List.mem_cons.1 hc with rfl | hc
      · exact hmark
      · exact (hkeeps s rfl).printable c hc
  intro c hc
  rw [tailChars, List.mem_append, List.mem_append] at hc
  rcases hc with hc | hc | hc
  · obtain ⟨s, hs, hc⟩ := List.mem_flatMap.1 hc
    rcases List.mem_cons.1 hc with rfl | hc
    · decide
    · exact (h.path s hs).keeps.printable c hc
  · exact hmarked (by decide) h.query c hc
  · exact hmarked (by decide) h.fragment c hc

/-- A text of printable characters holds nothing that does not count. -/
theorem clean_of_plain {s : String} (h : ∀ c ∈ s.toList, 0x20 < c.toNat) : clean s = s.toList := by
  have hends : ∀ c ∈ s.toList, decide (c.toNat ≤ 0x20) = false := fun c hc =>
    decide_eq_false (Nat.not_le.2 (h c hc))
  unfold clean
  rw [Text.stripBy_of_ends (fun c hc => hends c (List.mem_of_head? hc))
    fun c hc => hends c (List.mem_of_getLast? hc), List.filter_eq_self]
  intro c hc
  have hlow := h c hc
  simp only [Bool.and_eq_true, bne_iff_ne]
  refine ⟨⟨?_, ?_⟩, ?_⟩ <;>
  · rintro rfl
    exact absurd hlow (by decide)

/-- An address in normal form is read from its own text. -/
theorem read_text {u : Url} (h : u.Normal) : read u.text = .ok (some u) := by
  have htext := toList_text u
  have hchars : ∀ c ∈ u.text.toList, 0x20 < c.toNat := by
    intro c hc
    have hscheme : ∀ c ∈ u.scheme.toList, 0x20 < c.toNat := by
      rcases h.scheme with hs | hs <;> rw [hs] <;> exact List.all_iff_forall_prop.1 (by decide)
    rw [htext, List.mem_append, List.mem_cons, List.mem_cons, List.mem_cons, List.mem_append] at hc
    rcases hc with hc | rfl | rfl | rfl | hc | hc
    · exact hscheme c hc
    · decide
    · decide
    · decide
    · exact (authority_plain h c hc).1
    · exact (tailChars_plain h c hc).1
  have hempty : u.text.isEmpty = false := by
    rw [Bool.eq_false_iff, Ne, String.isEmpty_iff]
    intro he
    rw [he] at htext
    simp at htext
  have hslash : (u.loginChars ++ u.placeChars ++ u.tailChars).dropWhile
      (fun c => c == '/' || c == '\\') = u.loginChars ++ u.placeChars ++ u.tailChars := by
    obtain ⟨c, cs, hcs⟩ := List.exists_cons_of_ne_nil fun hnil : u.loginChars ++ u.placeChars = [] =>
      h.host.filled (List.append_eq_nil_iff.1 (List.append_eq_nil_iff.1 hnil).2).1
    have hc := (authority_plain h c (by rw [hcs]; exact List.mem_cons_self ..)).2
    simp only [endsAuthority, Bool.or_eq_false_iff] at hc
    rw [hcs, List.cons_append, List.dropWhile_cons_of_neg]
    rw [hc.1.1.1, hc.2]
    exact Bool.false_ne_true
  have hsplit : splitScheme? u.text.toList
      = some (u.scheme, '/' :: '/' :: (u.loginChars ++ u.placeChars ++ u.tailChars)) := by
    rw [htext]
    rcases h.scheme with hs | hs <;> rw [hs] <;> rfl
  unfold read
  rw [hempty, if_neg Bool.false_ne_true, clean_of_plain hchars, hsplit]
  dsimp only
  rw [if_pos (by rcases h.scheme with hs | hs <;> rw [hs] <;> rfl)]
  show (readAfterSlashes u.scheme ((u.loginChars ++ u.placeChars ++ u.tailChars).dropWhile _)).map _ = _
  rw [hslash, readAfterSlashes_chars h]
  rfl

end Glasshouse.Url
