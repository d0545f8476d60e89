/-
Glasshouse.Proofs.Condition.Verdicts — which trees get a verdict at all. Everything that
a tree asks is asked before it is judged, so a window that would begin before
the calendar leaves any tree without verdict that has it in a leaf, whether the
leaf is judged or not; so does an aggregate that is undefined. A limit on ages
is looked at where its leaf is judged, if there is data; one that cannot be
counted ends the judging there. Missing data are no reason. Main statement:
`evaluate_returns_iff`.

Side conditions of the main statement. The moment is one of universal time between the
years 2000 and 3000, so that it has a local time in every zone that is less than a day
from universal time. The calls that read for conditions answer.
-/
import Glasshouse.Proofs.Condition.Semantics

namespace Glasshouse

open Calendar

/-! ## Minutes that can be counted -/

/-- The first number of minutes whose days are too many for a span. -/
def uncountable : Nat := 1440000000000

/-- The moment lies between the beginnings of two years. -/
def Calendar.Moment.InYears (first last : Nat) (m : Moment) : Prop :=
  daysBeforeYear first * dayLength ≤ m.instant ∧ m.instant < daysBeforeYear last * dayLength

/-- A span of minutes, by the number of its days. -/
theorem Span.ofMinutes?_eq (n : Int) : Span.ofMinutes? n =
    if n / 1440 < -2147483648 ∨ 2147483647 < n / 1440 then .error .spanUncountable
    else if n / 1440 < -999999999 ∨ 999999999 < n / 1440 then .error (.spanTooLong (n / 1440))
    else .ok (n * minute) := by
  have hdays : (n * minute : Int) / dayLength = n / 1440 := by
    show (n * 60000000 : Int) / 86400000000 = _
    omega
  show (if decide ((n * minute : Int) / dayLength < -2147483648)
      || decide (2147483647 < (n * minute : Int) / dayLength) then _
    else if decide ((n * minute : Int) / dayLength < -999999999)
      || decide (999999999 < (n * minute : Int) / dayLength)
    then Except.error (Fault.spanTooLong ((n * minute : Int) / dayLength)) else _) = _
  simp only [hdays, Bool.or_eq_true, decide_eq_true_eq]

theorem Span.ofMinutes?_nat (n : Nat) :
    (∃ s, Span.ofMinutes? n = .ok s) ↔ n < uncountable := by
  unfold uncountable
  rw [Span.ofMinutes?_eq]
  constructor
  · rintro ⟨s, hs⟩
    split at hs
    · cases hs
    · split at hs
      · cases hs
      · omega
  · intro hn
    rw [if_neg (by omega), if_neg (by omega)]
    exact ⟨_, rfl⟩

theorem inCalendar_iff (i : Int) : inCalendar i = true ↔ 0 ≤ i ∧ i < endOfTime := by
  show (decide (0 ≤ i) && decide (i < endOfTime)) = true ↔ _
  rw [Bool.and_eq_true, decide_eq_true_eq, decide_eq_true_eq]

/-- A window begins in the calendar where there are so many minutes before now. -/
theorem Store.window_nat {now : Moment} (hnow : inCalendar now.instant = true) (n : Nat) :
    (∃ p, Store.window now n = .ok p) ↔ (n * minute : Int) ≤ now.instant := by
  obtain ⟨hlow, hhigh⟩ := (inCalendar_iff _).1 hnow
  have hminute : (n * minute : Int) = n * 60000000 := rfl
  have hend : endOfTime = (315537897600000000 : Int) := rfl
  have hbegin : inCalendar (now.instant - n * minute : Int) = true
      ↔ (n * minute : Int) ≤ now.instant := by
    rw [inCalendar_iff, hminute]
    omega
  constructor
  · rintro ⟨p, hp⟩
    obtain ⟨stop, hstop, hp⟩ := bind_eq_ok.1 hp
    obtain ⟨span, hspan, hp⟩ := bind_eq_ok.1 hp
    obtain ⟨-, rfl⟩ := Moment.toInstant_eq_ok.1 hstop
    rw [Span.ofMinutes?_eq_ok hspan] at hp
    dsimp only at hp
    split at hp
    · rename_i hstart
      exact hbegin.1 hstart
    · cases hp
  · intro hn
    have hcount : n < uncountable := by
      unfold uncountable
      omega
    obtain ⟨span, hspan⟩ := (Span.ofMinutes?_nat n).2 hcount
    have hstart := hbegin.2 hn
    rw [← Span.ofMinutes?_eq_ok hspan] at hstart
    refine ⟨(now.instant - span, now.instant), bind_eq_ok.2 ⟨now.instant, ?_, ?_⟩⟩
    · exact Moment.toInstant_eq_ok.2 ⟨hnow, rfl⟩
    · exact bind_eq_ok.2 ⟨span, hspan, if_pos hstart⟩

namespace Leaf

/-- The window of a leaf begins in the calendar. -/
def Windowed (now : Moment) : Leaf → Prop
  | history t => t.window * minute ≤ now.instant
  | trend t => t.window * minute ≤ now.instant
  | _ => True

/-- The limit of a leaf can be counted, if there is an age to compare it with. -/
def Limited (s : Store) : Leaf → Prop
  | sensor t => s.latest t.sensor t.field = none ∨ t.maxAge < uncountable
  | heartbeat t => s.lastSeen t.sensor = none ∨ t.timeout < uncountable
  | _ => True

end Leaf

/-! ## The leaves that are judged -/

namespace Condition

mutual

/-- A leaf that the judging of a tree comes to, given the meaning of the leaves. -/
def Reaches (P : Leaf → Prop) : Condition → Leaf → Prop
  | all cs, l => ReachesFrom P (false = true) cs l
  | any cs, l => ReachesFrom P (true = true) cs l
  | negation c, l => Reaches P c l
  | leaf m, l => l = m

/-- A leaf that the judging of children comes to, which ends at the first with the verdict
`stop`. -/
def ReachesFrom (P : Leaf → Prop) (stop : Prop) : List Condition → Leaf → Prop
  | [], _ => False
  | c :: cs, l => Reaches P c l ∨ (¬ (c.Holds P ↔ stop) ∧ ReachesFrom P stop cs l)

end

mutual

/-- Only leaves of the tree are come to. -/
theorem mem_leaves_of_reaches {P : Leaf → Prop} {l : Leaf} :
    (c : Condition) → c.Reaches P l → l ∈ c.leaves
  | all cs, h => mem_leavesOf_of_reaches cs h
  | any cs, h => mem_leavesOf_of_reaches cs h
  | negation c, h => mem_leaves_of_reaches c h
  | leaf _, h => List.mem_singleton.2 h

theorem mem_leavesOf_of_reaches {P : Leaf → Prop} {l : Leaf} {stop : Prop} :
    (cs : List Condition) → ReachesFrom P stop cs l → l ∈ leavesOf cs
  | [], h => h.elim
  | c :: cs, h => by
    rcases h with h | ⟨-, h⟩
    · exact List.mem_append_left _ (mem_leaves_of_reaches c h)
    · exact List.mem_append_right _ (mem_leavesOf_of_reaches cs h)

end

section Judge

variable {P : Leaf → Prop} {now clock : Moment} {ask : (q : Query) → q.Answer}

mutual

/-- Where every leaf that can be judged is judged as it is meant, a tree is judged exactly
where all leaves are that it comes to, and then as it is meant. -/
theorem judge_iff (path : List Nat) : (c : Condition) →
    (∀ l ∈ c.leaves, ∀ e, l.examine now clock ask = .ok e → (e.result = true ↔ P l)) →
    ((∃ e, c.judge now clock ask path = .ok e)
        ↔ ∀ l, c.Reaches P l → ∃ e, l.examine now clock ask = .ok e)
      ∧ ∀ e, c.judge now clock ask path = .ok e → (e.result = true ↔ c.Holds P)
  | all cs, h => by
    obtain ⟨hreach, hholds⟩ := judgeFrom_iff path 0 false cs h
    refine ⟨?_, fun e he => ?_⟩
    · simpa [judge, Reaches, bind_eq_ok] using hreach
    · obtain ⟨e', he', he⟩ := bind_eq_ok.1 he
      cases he
      exact (hholds e' he').1 rfl
  | any cs, h => by
    obtain ⟨hreach, hholds⟩ := judgeFrom_iff path 0 true cs h
    refine ⟨?_, fun e he => ?_⟩
    · simpa [judge, Reaches, bind_eq_ok] using hreach
    · obtain ⟨e', he', he⟩ := bind_eq_ok.1 he
      cases he
      exact (hholds e' he').2 rfl
  | negation c, h => by
    obtain ⟨hreach, hholds⟩ := judge_iff (path ++ [0]) c h
    refine ⟨?_, fun e he => ?_⟩
    · simpa [judge, Reaches, bind_eq_ok] using hreach
    · obtain ⟨e', he', he⟩ := bind_eq_ok.1 he
      cases he
      rw [Holds, ← hholds e' he', Bool.not_eq_true', Bool.not_eq_true]
  | leaf l, h => by
    refine ⟨?_, fun e he => ?_⟩
    · simp [judge, Reaches, bind_eq_ok]
    · obtain ⟨e', he', he⟩ := bind_eq_ok.1 he
      cases he
      exact h l (List.mem_singleton.2 rfl) e' he'

theorem judgeFrom_iff (path : List Nat) (i : Nat) (stop : Bool) : (cs : List Condition) →
    (∀ l ∈ leavesOf cs, ∀ e, l.examine now clock ask = .ok e → (e.result = true ↔ P l)) →
    ((∃ e, judgeFrom now clock ask path i stop cs = .ok e)
        ↔ ∀ l, ReachesFrom P (stop = true) cs l → ∃ e, l.examine now clock ask = .ok e)
      ∧ ∀ e, judgeFrom now clock ask path i stop cs = .ok e →
        (stop = false → (e.result = true ↔ AllHold P cs))
          ∧ (stop = true → (e.result = true ↔ AnyHolds P cs))
  | [], _ => by
    refine ⟨by simp [judgeFrom, ReachesFrom], fun e he => ?_⟩
    cases he
    exact ⟨fun hs => by simp [hs, AllHold], fun hs => by simp [hs, AnyHolds]⟩
  | c :: cs, h => by
    have hleaves := List.forall_mem_append.1 h
    obtain ⟨hreach, hholds⟩ := judge_iff (path ++ [i]) c hleaves.1
    obtain ⟨hreachFrom, hholdsFrom⟩ := judgeFrom_iff path (i + 1) stop cs hleaves.2
    cases hc : c.judge now clock ask (path ++ [i]) with
    | error f =>
      -- some leaf in it was not judged
      have herror : judgeFrom now clock ask path i stop (c :: cs) = .error f :=
        judgeFrom_fails hc cs
      have hnot : ¬ ∀ l, c.Reaches P l → ∃ e, l.examine now clock ask = .ok e := by
        rw [← hreach, hc]
        simp
      refine ⟨?_, fun e he => by rw [herror] at he; cases he⟩
      rw [herror]
      simp only [reduceCtorEq, exists_false, false_iff]
      exact fun hall => hnot fun l hl => hall l (.inl hl)
    | ok e =>
      have hreached := hreach.1 ⟨e, hc⟩
      have hverdict := hholds e hc
      by_cases hstop : e.result = stop
      · have hdone := judgeFrom_stops hc hstop cs
        have hends : c.Holds P ↔ stop = true := by rw [← hverdict, hstop]
        refine ⟨?_, fun e' he' => ?_⟩
        · rw [hdone]
          simp only [Except.ok.injEq, exists_eq', true_iff]
          rintro l (hl | ⟨hgoes, -⟩)
          · exact hreached l hl
          · exact absurd hends hgoes
        · rw [hdone] at he'
          cases he'
          refine ⟨fun hs => ?_, fun hs => ?_⟩
          · simp [hs, AllHold, hends]
          · simp [hs, AnyHolds, hends]
      · have hgoes := judgeFrom_goesOn hc hstop cs
        have hnot : ¬ (c.Holds P ↔ stop = true) := by
          rw [← hverdict, ← Bool.eq_iff_iff]
          exact hstop
        refine ⟨?_, fun e' he' => ?_⟩
        · have hrest : (∃ e', judgeFrom now clock ask path i stop (c :: cs) = .ok e')
              ↔ ∃ e, judgeFrom now clock ask path (i + 1) stop cs = .ok e := by
            rw [hgoes]
            cases judgeFrom now clock ask path (i + 1) stop cs <;> simp [Except.map]
          rw [hrest, hreachFrom]
          constructor
          · rintro hall l (hl | ⟨-, hl⟩)
            · exact hreached l hl
            · exact hall l hl
          · exact fun hall l hl => hall l (.inr ⟨hnot, hl⟩)
        · rw [hgoes] at he'
          obtain ⟨rest, hrest, rfl⟩ := map_eq_ok.1 he'
          obtain ⟨hall, hany⟩ := hholdsFrom rest hrest
          refine ⟨fun hs => ?_, fun hs => ?_⟩
          · have htrue : c.Holds P := by simpa [hs] using hnot
            rw [hall hs, AllHold]
            exact (and_iff_right htrue).symm
          · have hfalse : ¬ c.Holds P := by simpa [hs] using hnot
            rw [hany hs, AnyHolds]
            exact (or_iff_right hfalse).symm

end

end Judge

end Condition

/-! ## What leaves need -/

section Needs

variable {s : Store} {now clock : Moment} {ask : (q : Query) → q.Answer}

/-- A question is answered exactly where the window of its leaf begins in the calendar and
its aggregate is defined. -/
theorem Leaf.answered_iff (hnow : inCalendar now.instant = true) {l : Leaf} {q : Query}
    (hq : l.query? = some q) :
    (∃ a, s.answer now q = .ok a) ↔ l.Windowed now ∧ l.Defined s now := by
  cases l with
  | sensor t =>
    cases hq
    exact iff_of_true ⟨_, rfl⟩ ⟨trivial, trivial⟩
  | device t =>
    cases hq
    exact iff_of_true ⟨_, rfl⟩ ⟨trivial, trivial⟩
  | time t => cases hq
  | history t =>
    cases hq
    constructor
    · rintro ⟨a, ha⟩
      obtain ⟨p, hp, -⟩ := bind_eq_ok.1 ha
      have hwindow := (Store.window_nat hnow _).1 ⟨p, hp⟩
      refine ⟨hwindow, ?_⟩
      by_contra hundefined
      have intime : (Leaf.history t).InTime s now := (Store.window_nat hnow _).2 hwindow
      rw [(Leaf.answered intime rfl).2 hundefined] at ha
      cases ha
    · rintro ⟨hwindow, hdefined⟩
      have intime : (Leaf.history t).InTime s now := (Store.window_nat hnow _).2 hwindow
      exact (Leaf.answered intime rfl).1 hdefined
  | trend t =>
    cases hq
    constructor
    · rintro ⟨xs, hxs⟩
      obtain ⟨p, hp, -⟩ := bind_eq_ok.1 hxs
      exact ⟨(Store.window_nat hnow _).1 ⟨p, hp⟩, trivial⟩
    · rintro ⟨hwindow, -⟩
      have intime : (Leaf.trend t).InTime s now := (Store.window_nat hnow _).2 hwindow
      exact (Leaf.answered intime rfl).1 trivial
  | heartbeat t =>
    cases hq
    exact iff_of_true ⟨_, rfl⟩ ⟨trivial, trivial⟩

/-- An age is compared with a limit exactly where the limit can be counted. -/
theorem compared_iff {α : Type} (aware : now.Aware) (i : Instant) (n : Nat)
    (f : Span → Span → α) :
    (∃ a, (do
        let age ← now.minus (.ofInstant i)
        let limit ← Span.ofMinutes? n
        .ok (f age limit) : Except Fault α) = .ok a) ↔ n < uncountable := by
  rw [Moment.minus_of_aware aware (Moment.utc_ofInstant i).aware, ← Span.ofMinutes?_nat]
  cases Span.ofMinutes? n <;> simp [bind, Except.bind]

/-- A leaf whose question is answered is judged exactly where its limit can be counted. -/
theorem Leaf.examine_iff (aware : now.Aware) {l : Leaf}
    (answers : ∀ q, l.query? = some q → s.answer now q = .ok (ask q)) :
    (∃ e, l.examine now clock ask = .ok e) ↔ l.Limited s := by
  cases l with
  | device t => exact iff_of_true ⟨_, rfl⟩ trivial
  | time t => exact iff_of_true ⟨_, rfl⟩ trivial
  | history t => exact iff_of_true ⟨_, rfl⟩ trivial
  | trend t => exact iff_of_true ⟨_, rfl⟩ trivial
  | sensor t =>
    have hask := (Except.ok.inj (answers _ rfl)).symm
    simp only [Leaf.examine, hask, Leaf.Limited]
    cases s.latest t.sensor t.field with
    | none => simp
    | some r => simpa using compared_iff aware r.recordedAt t.maxAge _
  | heartbeat t =>
    have hask := (Except.ok.inj (answers _ rfl)).symm
    simp only [Leaf.examine, hask, Leaf.Limited]
    cases s.lastSeen t.sensor with
    | none => simp
    | some i => simpa using compared_iff aware i t.timeout _

/-- A leaf that is judged on the answers of a store says what it means. -/
theorem Leaf.means_of_examine (aware : now.Aware) (hnow : inCalendar now.instant = true) {l : Leaf}
    (windowed : l.Windowed now)
    (answers : ∀ q, l.query? = some q → s.answer now q = .ok (ask q)) {e : Evidence}
    (he : l.examine now clock ask = .ok e) : e.result = true ↔ l.Holds s now clock := by
  have hlimited : l.Limited s := (Leaf.examine_iff aware answers).1 ⟨e, he⟩
  have intime : l.InTime s now := by
    cases l with
    | device t | time t => trivial
    | history t | trend t => exact (Store.window_nat hnow _).2 windowed
    | sensor t | heartbeat t => exact hlimited.imp id (Span.ofMinutes?_nat _).2
  have hjudged : Condition.Judged (Leaf.Holds s now clock) now clock ask l :=
    Leaf.judged aware intime answers
  obtain ⟨e', he', hmeans⟩ := hjudged
  rw [he] at he'
  cases he'
  exact hmeans

end Needs

/-- In the years that have time zones, the clocks of a zone can be read. -/
theorem local?_of_inYears {z : Zone} {now : Moment} (hzone : z.standard.natAbs < 1440)
    (hnow : now.InYears 2000 3001) :
    inCalendar now.instant = true ∧ ∃ clock, z.local? now = .ok clock := by
  obtain ⟨hlow, hhigh⟩ := hnow
  have hlow : (63082281600000000 : Int) ≤ now.instant := hlow
  have hhigh : now.instant < (94670812800000000 : Int) := hhigh
  have hend : endOfTime = (315537897600000000 : Int) := rfl
  have hin : inCalendar now.instant = true := (inCalendar_iff _).2 (by omega)
  have hoffset : (-86400000000 : Int) ≤ z.offsetAt now.instant
      ∧ z.offsetAt now.instant ≤ (90000000000 : Int) := by
    have hbase : (z.standard * minute : Int) = z.standard * 60000000 := rfl
    have hhour : (60 * minute : Int) = 3600000000 := rfl
    unfold Zone.offsetAt
    dsimp only
    split
    · omega
    · split
      · omega
      · omega
  have hlocal : inCalendar (now.instant + z.offsetAt now.instant) = true :=
    (inCalendar_iff _).2 (by omega)
  have hread : now.toInstant = .ok now.instant := Moment.toInstant_eq_ok.2 ⟨hin, rfl⟩
  exact ⟨hin, ⟨now.instant + z.offsetAt now.instant, some (z.offsetAt now.instant)⟩,
    bind_eq_ok.2 ⟨now.instant, hread, if_pos hlocal⟩⟩

/-- A tree gets a verdict exactly where every window begins in the calendar and every
aggregate is defined, also of leaves that are not judged, and where every limit can be counted
that the judging comes to. No other data, and no lack of data, leave it without. -/
theorem evaluate_returns_iff (c : Condition) {now : Moment} {w : World} (utc : now.Utc)
    (years : now.InYears 2000 3001) (answering : w.Answering)
    (zone : w.zone.standard.natAbs < 1440) :
    ∃ clock, w.zone.local? now = .ok clock ∧
      ((∃ e s, (Engine.evaluate c now).run.run w = (.ok (e, s), w))
        ↔ (∀ l ∈ c.leaves, l.Windowed now ∧ l.Defined w.store now)
          ∧ ∀ l, c.Reaches (Leaf.Holds w.store now clock) l → l.Limited w.store) := by
  obtain ⟨hin, clock, hclock⟩ := local?_of_inYears zone years
  refine ⟨clock, hclock, ?_⟩
  rw [answering.evaluate]
  simp only [Condition.capture, hclock]
  cases hgather : Snapshot.gather (w.store.answer now) c.queries with
  | error f =>
    refine iff_of_false (by rintro ⟨e, s, h⟩; cases congrArg Prod.fst h) ?_
    rintro ⟨hleaves, -⟩
    have hanswered : ∀ q ∈ c.queries, ∃ a, w.store.answer now q = .ok a := by
      intro q hq
      obtain ⟨l, hl, hlq⟩ := Condition.mem_queries.1 hq
      exact (Leaf.answered_iff hin hlq).2 (hleaves l hl)
    obtain ⟨found, hfound⟩ := Snapshot.gather_of_answered hanswered
    rw [hgather] at hfound
    cases hfound
  | ok found =>
    obtain ⟨hasked, hfound⟩ := Snapshot.of_gather hgather
    let snapshot : Snapshot := ⟨now, clock, found⟩
    have answers : ∀ l ∈ c.leaves, ∀ q, l.query? = some q →
        w.store.answer now q = .ok (snapshot.ask q) := by
      intro l hl q hq
      have hmem : q ∈ found.map Sigma.fst := hasked ▸ Condition.mem_queries.2 ⟨l, hl, hq⟩
      obtain ⟨a, ha, hin⟩ := Snapshot.find?_of_mem hmem
      rw [hfound _ hin, Snapshot.ask, ha]
      rfl
    have hleaves : ∀ l ∈ c.leaves, l.Windowed now ∧ l.Defined w.store now := by
      intro l hl
      cases hq : l.query? with
      | some q => exact (Leaf.answered_iff hin hq).1 ⟨_, answers l hl q hq⟩
      | none =>
        cases l with
        | time t => exact ⟨trivial, trivial⟩
        | sensor t | device t | history t | trend t | heartbeat t => cases hq
    have hmeans : ∀ l ∈ c.leaves, ∀ e, l.examine now clock snapshot.ask = .ok e →
        (e.result = true ↔ l.Holds w.store now clock) := fun l hl e he =>
      Leaf.means_of_examine utc.aware hin (hleaves l hl).1 (answers l hl) he
    obtain ⟨hjudge, -⟩ := Condition.judge_iff [] c hmeans
    have hreturns : (∃ e s, ((do
        let e ← c.evaluate snapshot
        pure (e, snapshot) : Except Fault (Evaluation × Snapshot)), w) = (.ok (e, s), w))
        ↔ ∃ e, c.judge now clock snapshot.ask [] = .ok e := by
      show (∃ e s, ((c.judge now clock snapshot.ask []).bind fun e => .ok (e, snapshot), w) = _) ↔ _
      cases c.judge now clock snapshot.ask [] <;> simp [Except.bind]
    refine hreturns.trans (hjudge.trans ?_)
    rw [and_iff_right hleaves]
    refine forall₂_congr fun l hl => ?_
    exact Leaf.examine_iff utc.aware (answers l (Condition.mem_leaves_of_reaches c hl))

theorem World.quiet_inYears : (World.quiet 720).clock.InYears 2000 3001 := by
  constructor <;> decide +kernel

/-- It can be told whether it is to be aired at noon. -/
theorem evaluate_returns_airing :
    ∃ e s, (Engine.evaluate .airing (World.quiet 720).clock).run.run
      (World.noon [20.0, 21.0, 22.0]) = (.ok (e, s), World.noon [20.0, 21.0, 22.0]) := by
  have hdefined : ∀ l ∈ Condition.airing.leaves, l.Windowed (World.quiet 720).clock
      ∧ l.Defined (World.noon [20.0, 21.0, 22.0]).store (World.quiet 720).clock := by
    have hhistory : (30 * minute : Int) ≤ (World.quiet 720).clock.instant := by decide +kernel
    refine List.forall_mem_cons.2 ⟨⟨trivial, trivial⟩, ?_⟩
    refine List.forall_mem_cons.2 ⟨⟨trivial, trivial⟩, ?_⟩
    refine List.forall_mem_cons.2 ⟨⟨trivial, trivial⟩, ?_⟩
    refine List.forall_mem_cons.2 ⟨⟨hhistory, fun x xs h => ?_⟩, ?_⟩
    · cases World.noon_recent.symm.trans h
      decide +kernel
    · refine List.forall_mem_cons.2 ⟨⟨hhistory, trivial⟩, ?_⟩
      exact List.forall_mem_cons.2 ⟨⟨trivial, trivial⟩, List.forall_mem_nil _⟩
  have hlimited : ∀ l ∈ Condition.airing.leaves,
      l.Limited (World.noon [20.0, 21.0, 22.0]).store := by
    refine List.forall_mem_cons.2 ⟨trivial, List.forall_mem_cons.2 ⟨trivial, ?_⟩⟩
    refine List.forall_mem_cons.2 ⟨.inr (by decide), List.forall_mem_cons.2 ⟨trivial, ?_⟩⟩
    refine List.forall_mem_cons.2 ⟨trivial, ?_⟩
    exact List.forall_mem_cons.2 ⟨.inr (by decide), List.forall_mem_nil _⟩
  have utc : (World.quiet 720).clock.Utc := rfl
  obtain ⟨clock, -, hreturns⟩ := evaluate_returns_iff .airing utc World.quiet_inYears
    (World.noon_answering [20.0, 21.0, 22.0]) (by decide)
  exact hreturns.2 ⟨hdefined, fun l hl => hlimited l (Condition.mem_leaves_of_reaches _ hl)⟩

/-- A window of more minutes than there have been since the year 1 is read, and leaves its
tree without verdict in a greenhouse without any data. -/
theorem endless_window_no_verdict :
    let tree : Condition := .leaf (.history ⟨"probe", "t", .avg, 1000000000000, .gte, 21.0⟩)
    let text : Doc := .record [("type", .str "history"), ("sensor_id", .str "probe"),
      ("field", .str "t"), ("aggregation", .str "AVG"), ("window_minutes", .int 1000000000000),
      ("operator", .str "GTE"), ("threshold", .num 21.0)]
    Condition.parse text = .ok tree ∧ (World.quiet 720).clock.InYears 2000 3001 ∧
      (World.quiet 720).Answering ∧ (Engine.evaluate tree (World.quiet 720).clock).run.run
        (World.quiet 720) = (.error .dateOutOfRange, World.quiet 720) := by
  intro tree text
  have answering : (World.quiet 720).Answering := fun _ _ => rfl
  refine ⟨rfl, World.quiet_inYears, answering, ?_⟩
  rw [answering.evaluate]
  rfl

end Glasshouse
