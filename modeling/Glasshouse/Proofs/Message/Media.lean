/-
Glasshouse.Proofs.Message.Media — a notice on several media. They are tried one after the other. A
medium that is not configured, or whose line fails, has not delivered, and the next is tried;
any other fault, of a request that cannot be written or of the line, ends the sending, and
media that come later are not tried. A medium that is asked for more than once shows what
became of it the last time. Main statement: `isolated_iff`.
-/
import Glasshouse.Proofs.Dispatch.TimedCommand
import Glasshouse.Proofs.Basic.Table

namespace Glasshouse

open Plan World

/-! ## Requests that cannot be written -/

namespace Wire

theorem requireAscii_error {s : String} {f : Fault} (h : requireAscii s = .error f) :
    ∃ i cs, f = .notAscii i cs := by
  unfold requireAscii at h
  split at h
  · cases h
  · cases h
    exact ⟨_, _, rfl⟩

theorem headersOf_error {hs : List (String × String)} {f : Fault} (h : headersOf hs = .error f) :
    ∃ i cs, f = .notAscii i cs := by
  have hloop : ∀ hs : List (String × String), (hs.forM fun h => do
      requireAscii h.1
      requireAscii h.2 : Except Fault Unit) = .error f → ∃ i cs, f = .notAscii i cs := by
    intro hs
    induction hs with
    | nil => exact nofun
    | cons h hs ih =>
      intro herror
      rcases bind_eq_error.1 herror with hone | ⟨_, -, hrest⟩
      · rcases bind_eq_error.1 hone with hname | ⟨_, -, hvalue⟩
        · exact requireAscii_error hname
        · exact requireAscii_error hvalue
      · exact ih hrest
  rcases bind_eq_error.1 h with hforM | ⟨_, -, hrest⟩
  · exact hloop hs hforM
  · cases hrest

/-- A request that cannot be written has a character in its headers that has no ASCII form. -/
theorem prepare_error {method url : String} {hs : List (String × String)} {body : Option Doc}
    {f : Fault} (h : prepare method url hs body = .error f) : ∃ i cs, f = .notAscii i cs := by
  rcases bind_eq_error.1 h with hheaders | ⟨_, -, hrest⟩
  · exact headersOf_error hheaders
  · cases hrest

end Wire

/-! ## A medium -/

namespace Notice

variable (s : Settings) (n : Notice)

/-- The request that delivers a notice by the medium of a name, where that is configured; it
may be one that cannot be written. -/
def request? (medium : String) : Option (Except Fault Request) :=
  ((Medium.ofName? medium).bind (letter? s n)).map fun l =>
    Wire.prepare "POST" l.1 l.2.1 (some l.2.2)

/-- What an answer says of a notice: whether it was delivered. So does a fault of the line; any
other fault says nothing and remains one. -/
def verdict : Except Fault Response → Except Fault Bool
  | .ok r => .ok r.isSuccess
  | .error f => if isLineFault f then .ok false else .error f

/-- What becomes of a notice on a medium, and of the line. -/
def attempt (medium : String) (x : Wire) : Except Fault Bool × Wire :=
  match request? s n medium with
  | none => (.ok (medium == Medium.log.name), x)
  | some (.error f) => (.error f, x)
  | some (.ok q) => (verdict (x.send q).1.outcome, (x.send q).2)

variable {s n}

theorem isLineFault_of_prepare {method url : String} {hs : List (String × String)}
    {body : Option Doc} {f : Fault} (h : Wire.prepare method url hs body = .error f) :
    isLineFault f = false := by
  obtain ⟨i, cs, rfl⟩ := Wire.prepare_error h
  rfl

/-- A notice that is posted: if its request can be written, its delivery depends on the answer. -/
theorem run_post {url : String} {headers : List (String × String)} {body : Doc} {q : Request}
    (written : Wire.prepare "POST" url headers (some body) = .ok q) (w : World) : ∃ d,
    (post url headers body).run.run w = (verdict (w.notices.send q).1.outcome,
      ({ w with notices := (w.notices.send q).2 } : World).elapse d) := by
  rcases hsend : w.notices.send q with ⟨reply, x⟩
  refine ⟨reply.delay, ?_⟩
  unfold post
  rw [written, Work.run_tryCatch, Work.run_bind, Work.run_exchangeOk (l := .notice) hsend]
  cases reply.outcome with
  | error f =>
    unfold verdict Work.demand
    by_cases h : isLineFault f = true
    · simp only [if_pos h]
      rfl
    · simp only [if_neg h]
      rfl
  | ok answer =>
    unfold verdict Work.demand
    cases h : answer.isSuccess with
    | true =>
      simp only [h]
      rfl
    | false =>
      simp only [h]
      rfl

theorem run_post_error {url : String} {headers : List (String × String)} {body : Doc} {f : Fault}
    (unwritten : Wire.prepare "POST" url headers (some body) = .error f) (w : World) :
    (post url headers body).run.run w = (.error f, w) := by
  unfold post Work.exchangeOk Work.exchange
  rw [unwritten, Work.run_tryCatch, Work.run_bind, Work.run_bind, Work.run_bind,
    Work.run_ofExcept]
  simp only [isLineFault_of_prepare unwritten]
  rfl

theorem notices_elapse (d : Duration) (w : World) : (w.elapse d).notices = w.notices := by
  obtain ⟨_, _, _, _, h⟩ := World.elapse_shape d w
  rw [h]

/-- A medium is tried: what that comes to, and what it leaves of the line. -/
theorem deliverBy_run (medium : String) (w : World) :
    ((deliverBy s n medium).run.run w).1 = (attempt s n medium w.notices).1 ∧
      ((deliverBy s n medium).run.run w).2.notices = (attempt s n medium w.notices).2 := by
  have hidle : ∀ b, (medium == Medium.log.name) = b → request? s n medium = none →
      ((pure b : Work Bool).run.run w).1 = (attempt s n medium w.notices).1 ∧
      ((pure b : Work Bool).run.run w).2.notices = (attempt s n medium w.notices).2 := by
    rintro b rfl hnone
    unfold attempt
    rw [hnone]
    exact ⟨rfl, rfl⟩
  unfold deliverBy
  cases hm : Medium.ofName? medium with
  | none =>
    refine hidle false (beq_eq_false_iff_ne.2 ?_) (by rw [request?, hm]; rfl)
    rintro rfl
    cases hm
  | some m =>
    have hname : m.name = medium := by simpa using List.find?_some hm
    cases hletter : letter? s n m with
    | none =>
      have hnone : request? s n medium = none := by
        rw [request?, hm, Option.bind_some, hletter]
        rfl
      cases m with
      | log => exact hidle true (by rw [← hname]; rfl) hnone
      | telegram | whatsapp | webhook =>
        simp only [hletter]
        exact hidle false (by rw [← hname]; rfl) hnone
    | some l =>
      obtain ⟨url, headers, body⟩ := l
      have hsome : request? s n medium = some (Wire.prepare "POST" url headers (some body)) := by
        rw [request?, hm, Option.bind_some, hletter]
        rfl
      have hpost : ((post url headers body).run.run w).1 = (attempt s n medium w.notices).1 ∧
          ((post url headers body).run.run w).2.notices = (attempt s n medium w.notices).2 := by
        unfold attempt
        rw [hsome]
        cases hrequest : Wire.prepare "POST" url headers (some body) with
        | error f =>
          rw [run_post_error hrequest]
          exact ⟨rfl, rfl⟩
        | ok q =>
          obtain ⟨d, hd⟩ := run_post hrequest w
          rw [hd]
          exact ⟨rfl, notices_elapse d _⟩
      cases m with
      | log => cases hletter
      | telegram | whatsapp | webhook =>
        simp only [hletter]
        exact hpost

/-! ## Media one after the other -/

variable (s n)

/-- What becomes of a notice on media one after the other, if each is tried whatever has become
of those before. -/
def fates : List String → Wire → List (String × Except Fault Bool)
  | [], _ => []
  | m :: r, x => (m, (attempt s n m x).1) :: fates r (attempt s n m x).2

/-- The requests that are made where every medium that is configured is tried. -/
def requests (media : List String) : List Request :=
  media.filterMap fun m => (request? s n m).bind Except.toOption

variable {s n}

theorem calls_attempt (m : String) (x : Wire) :
    (attempt s n m x).2.calls = x.calls ++ requests s n [m] := by
  unfold attempt requests
  cases hm : request? s n m with
  | none => simp [hm]
  | some r =>
    cases r with
    | error f => simp [hm, Except.toOption]
    | ok q => simp [hm, Except.toOption, Wire.send]

theorem requests_cons (m : String) (r : List String) :
    requests s n (m :: r) = requests s n [m] ++ requests s n r :=
  List.filterMap_append (l := [m])

/-- Media are tried in turn up to the first that has a fault. -/
theorem deliverAll_run (media : List String) (d : Delivered) (w : World) :
    let run := (deliverAll s n media d).run.run w
    (∃ ps : List (String × Bool),
      fates s n media w.notices = ps.map (fun p => (p.1, .ok p.2)) ∧ run.1 = .ok (d.fill ps) ∧
      run.2.notices.calls = w.notices.calls ++ requests s n media) ∨
    ∃ front m back, ∃ ps : List (String × Bool), ∃ f rest, media = front ++ m :: back ∧
      ps.map (·.1) = front ∧
      fates s n media w.notices = ps.map (fun p => (p.1, .ok p.2)) ++ (m, .error f) :: rest ∧
      run.1 = .error f ∧
      run.2.notices.calls = w.notices.calls ++ requests s n (front ++ [m]) := by
  induction media generalizing d w with
  | nil => exact .inl ⟨[], rfl, rfl, (List.append_nil _).symm⟩
  | cons m media ih =>
    obtain ⟨hfate, hwire⟩ := deliverBy_run (s := s) (n := n) m w
    have hcalls := calls_attempt (s := s) (n := n) m w.notices
    simp only [deliverAll, fates]
    rw [Work.run_bind]
    rcases hone : (deliverBy s n m).run.run w with ⟨f | ok, v⟩
    · rw [hone] at hfate hwire
      refine .inr ⟨[], m, media, [], f, _, rfl, rfl, by rw [← hfate]; rfl, rfl, ?_⟩
      rw [← hwire] at hcalls
      exact hcalls
    · rw [hone] at hfate hwire
      rw [← hwire] at hcalls
      rw [← hfate, ← hwire]
      rcases ih (d.put m ok) v with
        ⟨ps, hps, hrun, hrest⟩ | ⟨front, m', back, ps, f, rest, rfl, hfront, hps, hrun, hrest⟩
      · refine .inl ⟨(m, ok) :: ps, by rw [hps]; rfl, hrun, ?_⟩
        rw [hrest, hcalls, List.append_assoc, ← requests_cons]
      · refine .inr ⟨m :: front, m', back, (m, ok) :: ps, f, rest, rfl, by rw [← hfront]; rfl,
          by rw [hps]; rfl, hrun, ?_⟩
        rw [hrest, hcalls, List.append_assoc, ← requests_cons, List.cons_append]

theorem fates_fst (media : List String) (x : Wire) : (fates s n media x).map (·.1) = media := by
  induction media generalizing x with
  | nil => rfl
  | cons m media ih => rw [fates, List.map_cons, ih]

/-! ## A notice sent -/

/-- Whether a medium has delivered. -/
def took : Except Fault Bool → Bool
  | .ok b => b
  | .error _ => false

variable (n) (w : World)

/-- What becomes of a notice on its media in a world, if each is tried whatever has become of
those before. -/
def outlook : List (String × Except Fault Bool) := fates w.settings n n.media w.notices

/-- What becomes of a notice the last time that a medium is tried. -/
def last? (m : String) : Option (Except Fault Bool) :=
  ((n.outlook w).filter fun p => decide (p.1 = m)).getLast?.map (·.2)

/-- No medium has a fault other than that of its line. -/
def Unbroken : Prop := ∀ p ∈ n.outlook w, p.2.isOk = true

/-- A medium that delivers the last time that it is tried delivers every time. -/
def Unhidden : Prop := ∀ p ∈ n.outlook w, (n.last? w p.1).any took = true → took p.2 = true

instance : Decidable (n.Unbroken w) := inferInstanceAs (Decidable (∀ _ ∈ _, _))

instance : Decidable (n.Unhidden w) := inferInstanceAs (Decidable (∀ _ ∈ _, _))

/-- No medium stands in the way of another: the sending ends with an entry for each medium, every
one that is configured has been tried as often as it was asked for, in order, and an entry says
that a medium delivered only where it has done so every time. -/
def Isolated : Prop := ∃ d v, n.send.run.run w = (.ok d, v) ∧ d.keys.Nodup ∧
  (∀ m, m ∈ d.keys ↔ m ∈ n.media) ∧
  v.notices.calls = w.notices.calls ++ requests w.settings n n.media ∧
  ∀ p ∈ n.outlook w, d.get? p.1 = some true → took p.2 = true

/-- All media are tried in order, as often as they are asked for, and the sending ends with one
entry for each medium, which tells what became of it the last time. -/
def Completed : Prop := ∃ d v, n.send.run.run w = (.ok d, v) ∧ d.keys.Nodup ∧
  (∀ m, m ∈ d.keys ↔ m ∈ n.media) ∧
  v.notices.calls = w.notices.calls ++ requests w.settings n n.media ∧
  ∀ m, d.get? m = (n.last? w m).map took

/-- The sending ends with the fault of a medium, the first that has one; the media before it have
been tried, and those that come later have not. -/
def CutShort : Prop := ∃ front m back f v, n.media = front ++ m :: back ∧
  (∀ p ∈ (n.outlook w).take front.length, p.2.isOk = true) ∧
  (n.outlook w)[front.length]? = some (m, .error f) ∧ n.send.run.run w = (.error f, v) ∧
  v.notices.calls = w.notices.calls ++ requests w.settings n (front ++ [m])

variable {n w}

theorem send_run (enabled : w.settings.notificationEnabled = true) (asked : n.media ≠ []) :
    n.send.run.run w = (deliverAll w.settings n n.media []).run.run w := by
  have hmedia : n.mediaOrLog = n.media := if_neg (by simpa using asked)
  unfold send
  rw [Work.run_bind, Work.run_lift]
  simp only [run_look, enabled, if_true, hmedia]

theorem completed_of_unbroken (enabled : w.settings.notificationEnabled = true)
    (asked : n.media ≠ []) (unbroken : n.Unbroken w) : n.Completed w := by
  rcases deliverAll_run (s := w.settings) (n := n) n.media [] w with
    ⟨ps, hps, hrun, hcalls⟩ | ⟨front, m, back, ps, f, rest, -, -, hps, -, -⟩
  · obtain ⟨hnodup, hkeys⟩ := Table.keys_fill (t := []) List.nodup_nil ps
    have hmedia : ps.map (·.1) = n.media := by
      rw [← fates_fst (s := w.settings) (n := n) n.media w.notices, hps, List.map_map]
      rfl
    refine ⟨Table.fill [] ps, _, (send_run enabled asked).trans (Prod.ext hrun rfl), hnodup,
      fun m => ?_, hcalls, fun m => ?_⟩
    · rw [hkeys, hmedia]
      simp [Table.keys]
    · rw [Table.get?_fill, last?, outlook, hps, List.filter_map, List.getLast?_map]
      simp only [Table.get?_nil, Option.or_none, Option.map_map]
      rfl
  · have hmem : (m, .error f) ∈ n.outlook w := by
      rw [outlook, hps]
      exact List.mem_append_right _ (List.mem_cons_self ..)
    cases unbroken _ hmem

theorem cutShort_of_broken (enabled : w.settings.notificationEnabled = true)
    (asked : n.media ≠ []) (broken : ¬ n.Unbroken w) : n.CutShort w := by
  rcases deliverAll_run (s := w.settings) (n := n) n.media [] w with
    ⟨ps, hps, -, -⟩ | ⟨front, m, back, ps, f, rest, hmedia, hfront, hps, hrun, hcalls⟩
  · refine absurd (fun p hp => ?_) broken
    rw [outlook, hps] at hp
    obtain ⟨q, -, rfl⟩ := List.mem_map.1 hp
    rfl
  · have hlength : front.length
        = (ps.map fun p => (p.1, (.ok p.2 : Except Fault Bool))).length := by
      rw [← hfront, List.length_map, List.length_map]
    refine ⟨front, m, back, f, _, hmedia, fun p hp => ?_, ?_,
      (send_run enabled asked).trans (Prod.ext hrun rfl), hcalls⟩
    · rw [outlook, hps, hlength, List.take_left] at hp
      obtain ⟨q, -, rfl⟩ := List.mem_map.1 hp
      rfl
    · rw [outlook, hps, hlength, List.getElem?_append_right (Nat.le_refl _), Nat.sub_self]
      rfl

/-- **Which faults stand in the way of other media.** A notice is sent on media of which there is
at least one, whatever is configured and however requests are answered. No medium stands in the
way of another if and only if none has a fault other than that of its line, and none that
delivers the last time has failed before. Without such a fault all media are tried in order, as
often as they are asked for, and each entry tells what became of its medium the last time.
Otherwise the sending ends with the first such fault, and media that come later are not tried. -/
theorem isolated_iff (enabled : w.settings.notificationEnabled = true) (asked : n.media ≠ []) :
    (n.Isolated w ↔ n.Unbroken w ∧ n.Unhidden w) ∧ (n.Unbroken w → n.Completed w) ∧
      (¬ n.Unbroken w → n.CutShort w) := by
  refine ⟨⟨?_, ?_⟩, completed_of_unbroken enabled asked, cutShort_of_broken enabled asked⟩
  · rintro ⟨d, v, hrun, -, -, -, hentries⟩
    have hunbroken : n.Unbroken w := by
      by_contra hbroken
      obtain ⟨_, _, _, f, _, _, _, _, hfault, _⟩ := cutShort_of_broken enabled asked hbroken
      cases congrArg Prod.fst (hfault.symm.trans hrun)
    obtain ⟨d', v', hrun', -, -, -, hlast⟩ := completed_of_unbroken enabled asked hunbroken
    obtain ⟨rfl, rfl⟩ : d' = d ∧ v' = v := by
      cases hrun'.symm.trans hrun
      exact ⟨rfl, rfl⟩
    refine ⟨hunbroken, fun p hp htook => hentries p hp ?_⟩
    rw [hlast]
    cases hp' : n.last? w p.1 with
    | none => simp [hp'] at htook
    | some r => simpa [hp'] using htook
  · rintro ⟨hunbroken, hunhidden⟩
    obtain ⟨d, v, hrun, hnodup, hkeys, hcalls, hlast⟩ := completed_of_unbroken enabled asked hunbroken
    refine ⟨d, v, hrun, hnodup, hkeys, hcalls, fun p hp hentry => hunhidden p hp ?_⟩
    rw [hlast] at hentry
    obtain ⟨r, hr, htook⟩ := Option.map_eq_some_iff.1 hentry
    rw [hr]
    exact htook

/-- Settings by which notices go to a chat, under a key, and to a web address. -/
def settingsFor (key : String) : Settings :=
  { (World.quiet 0).settings with
    notificationEnabled := true
    whatsappUrl := "http://wa.example/send"
    whatsappKey := key
    noticeWebhookUrl := "http://n.example/hook" }

/-- A world in which requests are answered with some statuses. -/
def worldFor (key : String) (first : Nat) (rest : List Nat) : World :=
  { World.quiet 0 with
    settings := settingsFor key
    notices :=
      { replies := ⟨{ outcome := .ok { status := first } },
          rest.map fun status => { outcome := .ok { status } }⟩ } }

/-- A notice on some media. -/
def hot (media : List String) : Notice := { message := "hot", media }

/-- The chat does not take the notice and another medium is not configured; the others get it. -/
theorem isolated_iff_hot :
    (hot ["whatsapp", "telegram", "webhook", "log"]).Isolated (worldFor "key" 500 [200]) ∧
    ((hot ["whatsapp", "telegram", "webhook", "log"]).outlook (worldFor "key" 500 [200])).map
      (fun p => took p.2) = [false, false, true, true] :=
  ⟨(isolated_iff rfl (List.cons_ne_nil _ _)).1.2 ⟨by decide +kernel, by decide +kernel⟩,
    by decide +kernel⟩

/-- A world in which the key of the chat has a letter outside of ASCII. -/
def accented : World := worldFor "clé" 200 []

/-- With such a key, the sending ends before the log has its turn. -/
theorem key_blocks_log : ∃ f v, (hot ["whatsapp", "log"]).send.run.run accented = (.error f, v) ∧
    v.notices.calls.length = 0 ∧ ¬ (hot ["whatsapp", "log"]).Isolated accented := by
  have hfault : ((hot ["whatsapp", "log"]).send.run.run accented).1.isOk = false := by
    decide +kernel
  have hcalls : ((hot ["whatsapp", "log"]).send.run.run accented).2.notices.calls.length = 0 := by
    decide +kernel
  rcases hrun : (hot ["whatsapp", "log"]).send.run.run accented with ⟨f | d, v⟩
  · rw [hrun] at hcalls
    refine ⟨f, v, rfl, hcalls, ?_⟩
    rintro ⟨d, u, hd, -⟩
    cases congrArg Prod.fst (hrun.symm.trans hd)
  · rw [hrun] at hfault
    cases hfault

/-- A medium that is asked for twice shows that it delivered, though it failed the first time. -/
example :
    ((hot ["webhook", "webhook"]).outlook (worldFor "key" 500 [200])).map (fun p => took p.2)
      = [false, true] ∧
    (match ((hot ["webhook", "webhook"]).send.run.run (worldFor "key" 500 [200])).1 with
      | .ok d => d
      | .error _ => []) = [("webhook", true)] := by
  decide +kernel

end Notice

end Glasshouse
