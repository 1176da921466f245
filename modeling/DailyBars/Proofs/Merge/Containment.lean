import DailyBars.Proofs.Merge.Trial

/-! # Refusals are respected

What happens between engines that share a limiter and their sources is written down as marks: a gate
was read, an attempt was made, an attempt made elsewhere was reported. A source is called only
when none of the ends of earlier attempts on it keeps it from being called, and its gate is open as
soon as none does.
-/

namespace DailyBars

variable {ω : Type}

/-! ## Marks -/

/-- Something that happened between the engines and their sources. -/
inductive Mark where
  /-- The gate of a source was read. -/
  | gated (source : String) (gate : Gate) (instant : Instant)
  | attempted (t : Trial)
  /-- An attempt that was made elsewhere ended. -/
  | reported (x : Settlement)

namespace Mark

/-- The end of an attempt. -/
def ending? : Mark → Option Settlement
  | gated .. => none
  | attempted t => some t.ended
  | reported x => some x

/-- The calls of an attempt. -/
def calls : Mark → List Call
  | attempted t => t.calls
  | gated .. | reported _ => []

end Mark

/-- Nothing of the past keeps a source from being called at an instant. -/
def Clear (breaker : Breaker) (past : List Settlement) (source : String) (u : Instant) : Prop :=
  ∀ x ∈ past, x.source = source → x.Over breaker u

/-- What is clear at an instant is clear later. -/
theorem Clear.mono {breaker : Breaker} {past : List Settlement} {source : String} {u v : Instant}
    (h : Clear breaker past source u) (huv : u ≤ v) : Clear breaker past source v :=
  fun x hx hsource => (h x hx hsource).mono huv

/-- What may happen after the ends of attempts in `past`: a gate is open exactly when none of them
keeps the source from being called, and a call is made only then. -/
def Mark.Lawful (breaker : Breaker) (past : List Settlement) : Mark → Prop
  | gated source gate instant => gate = .opened ↔ Clear breaker past source instant
  | attempted t => t.Orderly ∧ ∀ c ∈ t.calls, Clear breaker past c.source c.instant
  | reported _ => True

/-- Every mark of a history is lawful after those before it. -/
def Lawful (breaker : Breaker) : List Settlement → List Mark → Prop
  | _, [] => True
  | past, mark :: rest =>
    mark.Lawful breaker past ∧ Lawful breaker (past ++ mark.ending?.toList) rest

/-- A history is lawful just if its first part is, and the rest is after it. -/
theorem lawful_append {breaker : Breaker} {past : List Settlement} {marks marks' : List Mark} :
    Lawful breaker past (marks ++ marks') ↔ Lawful breaker past marks
      ∧ Lawful breaker (past ++ marks.filterMap Mark.ending?) marks' := by
  induction marks generalizing past with
  | nil => simp [Lawful]
  | cons mark rest ih =>
    have hendings : past ++ (mark :: rest).filterMap Mark.ending?
        = past ++ mark.ending?.toList ++ rest.filterMap Mark.ending? := by
      rw [List.filterMap_cons, List.append_assoc]
      cases mark.ending? <;> rfl
    rw [hendings]
    simp only [List.cons_append, Lawful, ih, and_assoc]

/-- Each mark is lawful after those before it. -/
theorem Lawful.of_split {breaker : Breaker} {before after : List Mark} {mark : Mark}
    (h : Lawful breaker [] (before ++ mark :: after)) :
    mark.Lawful breaker (before.filterMap Mark.ending?) :=
  (lawful_append.1 h).2.1

namespace Engine

/-- What happens when an entry of the order is visited. -/
def visitMarks (e : Engine ω) (q : Query) (source : String) (m : Market (Recorded ω)) : List Mark :=
  if e.sources.configured source then
    .gated source (m.gate source).1 m.now ::
      if (m.gate source).1 = .opened then [.attempted (e.trial source q (m.gate source).2)] else []
  else []

/-- What happens during a walk. -/
def walkMarks (e : Engine ω) (q : Query) :
    List String → List Bar → Market (Recorded ω) → List Mark
  | [], _, _ => []
  | source :: rest, bars, m =>
    let (outcome, bars', m') := e.recorded.visit q source bars m
    let coverage := Series.coverage bars' q.window
    e.visitMarks q source m ++
      if outcome.called && decide (e.settings.minCoverage ≤ coverage) then []
      else e.walkMarks q rest bars' m'

/-- What happens during a fetch. -/
def fetchMarks (e : Engine ω) (q : Query) (m : Market (Recorded ω)) : List Mark :=
  if q.window.businessDayCount = 0 then [] else e.walkMarks q (e.orderFor q.symbol) [] m

end Engine

/-- The marks are what happens from one market to a later one, and are lawful after a past that the
first remembers. -/
structure Marked (breaker : Breaker) (past : List Settlement) (m m' : Market (Recorded ω))
    (marks : List Mark) : Prop where
  lawful : Lawful breaker past marks
  dated : ∀ x ∈ marks.filterMap Mark.ending?, x.instant.InCalendar
  remembers : m'.Remembers breaker (past ++ marks.filterMap Mark.ending?)
  record : m'.outside.calls = m.outside.calls ++ marks.flatMap Mark.calls
  before : m.Before m'

namespace Marked

variable {breaker : Breaker} {past : List Settlement} {m m₁ m₂ : Market (Recorded ω)}
variable {marks marks' : List Mark}

/-- Nothing happens. -/
theorem quiet (h : m₁.Remembers breaker past) (hrecord : m₁.outside.calls = m.outside.calls)
    (hbefore : m.Before m₁) : Marked breaker past m m₁ [] where
  lawful := trivial
  dated := nofun
  remembers := by
    rw [List.filterMap_nil, List.append_nil]
    exact h
  record := by rw [hrecord, List.flatMap_nil, List.append_nil]
  before := hbefore

/-- Nothing happened, and nothing is marked. -/
theorem nil (h : m.Remembers breaker past) : Marked breaker past m m [] :=
  quiet h rfl (Market.Before.refl m)

/-- Marked parts of a history are joined. -/
theorem append (h : Marked breaker past m m₁ marks)
    (h' : Marked breaker (past ++ marks.filterMap Mark.ending?) m₁ m₂ marks') :
    Marked breaker past m m₂ (marks ++ marks') where
  lawful := lawful_append.2 ⟨h.lawful, h'.lawful⟩
  dated x hx := by
    rw [List.filterMap_append] at hx
    exact (List.mem_append.1 hx).elim (h.dated x) (h'.dated x)
  remembers := by
    rw [List.filterMap_append, ← List.append_assoc]
    exact h'.remembers
  record := by rw [h'.record, h.record, List.flatMap_append, List.append_assoc]
  before := h.before.trans h'.before

/-- Reading a gate. -/
theorem gate (h : m.Remembers breaker past) (source : String) :
    Marked breaker past m (m.gate source).2 [.gated source (m.gate source).1 m.now] where
  lawful := ⟨h.gate_opened source, trivial⟩
  dated := nofun
  remembers := by
    rw [List.filterMap_cons_none rfl, List.filterMap_nil, List.append_nil]
    exact h.gate source
  record := by simp [Mark.calls]; rfl
  before := Market.before_of_now_eq rfl

/-- An attempt behind an open gate. -/
theorem call (e : Engine ω) (source : String) (q : Query) (hm : m.now.InCalendar)
    (h : m.Remembers e.limits.breaker past) (hclear : Clear e.limits.breaker past source m.now) :
    Marked e.limits.breaker past m (e.recorded.call source q m).2
      [.attempted (e.trial source q m)] := by
  obtain ⟨hrecord, horderly, hlater⟩ := e.leaves_call source q hm
  have hbefore := Engine.before_call e.recorded source q m
  refine ⟨⟨⟨horderly, fun c hc => ?_⟩, trivial⟩, ?_, ?_, ?_, hbefore⟩
  · rw [horderly.own c hc]
    exact hclear.mono (hlater c hc)
  · intro x hx
    rw [List.mem_singleton.1 hx]
    exact hbefore.inCalendar hm
  · exact e.remembers_call source q h
  · simpa [Mark.calls] using hrecord

/-- A visit leaves its marks, -/
theorem visit (e : Engine ω) (q : Query) (source : String) (bars : List Bar)
    (hm : m.now.InCalendar) (h : m.Remembers e.limits.breaker past) :
    Marked e.limits.breaker past m (e.recorded.visit q source bars m).2.2
      (e.visitMarks q source m) := by
  rw [Engine.visit_eq, Engine.visitMarks]
  have hconfigured : e.recorded.sources.configured source = e.sources.configured source := rfl
  rw [hconfigured]
  by_cases hc : e.sources.configured source = true
  · rw [if_pos hc, if_pos hc]
    have hgate := Marked.gate h source
    by_cases ho : (m.gate source).1 = .opened
    · rw [if_pos ho, if_pos ho]
      have hcall := Marked.call e source q (hgate.before.inCalendar hm)
        (h.gate source) ((h.gate_opened source).1 ho)
      rw [← List.append_nil past] at hcall
      have hboth := hgate.append hcall
      split
      next rows m' heq =>
        rw [heq] at hboth
        exact hboth
      next failure m' heq =>
        rw [heq] at hboth
        exact hboth
    · rw [if_neg ho, if_neg ho]
      exact hgate
  · rw [if_neg hc, if_neg hc]
    exact .nil h

/-- a walk those of its visits, -/
theorem walk (e : Engine ω) (q : Query) (order : List String) (bars : List Bar)
    (hm : m.now.InCalendar) (h : m.Remembers e.limits.breaker past) :
    Marked e.limits.breaker past m (e.recorded.walk q order bars m).2
      (e.walkMarks q order bars m) := by
  induction order generalizing bars m past with
  | nil => exact .nil h
  | cons source rest ih =>
    have hvisit := Marked.visit e q source bars hm h
    obtain ⟨outcome, bars', m', heq⟩ : ∃ outcome bars' m',
        e.recorded.visit q source bars m = (outcome, bars', m') := ⟨_, _, _, rfl⟩
    rw [heq] at hvisit
    have hrest := ih bars' (hvisit.before.inCalendar hm) hvisit.remembers
    have hsettings : e.recorded.settings = e.settings := rfl
    unfold Engine.walkMarks
    rw [Engine.walk_cons_def]
    simp only [heq, hsettings]
    split
    · rw [List.append_nil]
      exact hvisit
    · exact hvisit.append hrest

/-- and a fetch those of its walk. -/
theorem fetch (e : Engine ω) (q : Query) (hm : m.now.InCalendar)
    (h : m.Remembers e.limits.breaker past) :
    Marked e.limits.breaker past m (e.recorded.fetch q m).2 (e.fetchMarks q m) := by
  unfold Engine.fetchMarks
  rw [Engine.fetch_def]
  split
  · exact .nil h
  · exact .walk e q _ [] hm h

end Marked

/-! ## Traffic on one limiter -/

/-- Something that is done with the sources while one limiter is shared. -/
inductive Traffic (ω : Type) where
  | fetch (e : Engine ω) (q : Query)
  /-- The end of an attempt that was made elsewhere becomes known. -/
  | report (e : Engine ω) (source : String) (answer : Except Failure (List Bar))
  | gate (source : String)
  | wait (d : Duration)
  /-- The world outside changes. -/
  | turn (f : ω → ω)

namespace Traffic

/-- The market afterwards. Whatever the engine, the limiter with its rules is the shared one. -/
def after (limits : Limits) (m : Market ω) : Traffic ω → Market ω
  | fetch e q => ({ e with limits }.fetch q m).2
  | report e source answer => m.withStanding source ({ e with limits }.settle answer m.now)
  | gate source => (m.gate source).2
  | wait d => m.withPace fun p => { p with clock := p.clock.advance d }
  | turn f => { m with outside := f m.outside }

/-- The same with every call put on record. -/
def recorded : Traffic ω → Traffic (Recorded ω)
  | fetch e q => fetch e.recorded q
  | report e source answer => report e.recorded source answer
  | gate source => gate source
  | wait d => wait d
  | turn f => turn fun world => { world with outside := f world.outside }

/-- What happens meanwhile. -/
def marks (limits : Limits) (m : Market (Recorded ω)) : Traffic ω → List Mark
  | fetch e q => { e with limits }.fetchMarks q m
  | report e source answer =>
    let m' := m.withStanding source ({ e with limits }.settle answer m.now)
    [.reported ⟨source, answer, m.now, (m'.standing source).failures⟩]
  | gate source => [.gated source (m.gate source).1 m.now]
  | wait _ | turn _ => []

/-- The market after a run. -/
def run (limits : Limits) (events : List (Traffic ω)) (m : Market ω) : Market ω :=
  events.foldl (after limits) m

/-- What happens during a run. -/
def history (limits : Limits) : List (Traffic ω) → Market (Recorded ω) → List Mark
  | [], _ => []
  | t :: rest, m => t.marks limits m ++ history limits rest (t.recorded.after limits m)

variable {past : List Settlement} {m : Market (Recorded ω)}

/-- Recording does not change what happens. -/
theorem after_recorded (limits : Limits) (t : Traffic ω) (m : Market (Recorded ω)) :
    (t.recorded.after limits m).plain = t.after limits m.plain := by
  cases t with
  | fetch e q => exact congrArg Prod.snd (Engine.fetch_recorded { e with limits } q m)
  | report e source answer => rfl
  | gate source => rfl
  | wait d => rfl
  | turn f => rfl

/-- The record of the calls changes nothing else. -/
theorem run_recorded (limits : Limits) (events : List (Traffic ω)) (m : Market (Recorded ω)) :
    (run limits (events.map recorded) m).plain = run limits events m.plain := by
  induction events generalizing m with
  | nil => rfl
  | cons t rest ih =>
    show (run limits (rest.map recorded) (t.recorded.after limits m)).plain = _
    rw [ih, after_recorded]
    rfl

/-- Any traffic leaves its marks, -/
theorem marked_after (limits : Limits) (t : Traffic ω) (hm : m.now.InCalendar)
    (h : m.Remembers limits.breaker past) :
    Marked limits.breaker past m (t.recorded.after limits m) (t.marks limits m) := by
  cases t with
  | fetch e q => exact .fetch { e with limits } q hm h
  | report e source answer =>
    refine ⟨⟨trivial, trivial⟩, ?_, ?_, (List.append_nil _).symm, Market.before_of_now_eq rfl⟩
    · intro x hx
      rw [List.mem_singleton.1 hx]
      exact hm
    · exact h.settle { e.recorded with limits } rfl source answer
  | gate source => exact .gate h source
  | wait d =>
    have hbefore : m.Before (m.withPace fun p => { p with clock := p.clock.advance d }) :=
      Market.before_of_advance rfl
    exact .quiet (h.of_standing hbefore.now_le fun _ => rfl) rfl hbefore
  | turn f =>
    exact .quiet (h.of_standing (Int.le_refl _) fun _ => rfl) rfl (Market.before_of_now_eq rfl)

/-- and any run of it the history of all. -/
theorem marked_run (limits : Limits) (events : List (Traffic ω)) (hm : m.now.InCalendar)
    (h : m.Remembers limits.breaker past) :
    Marked limits.breaker past m (run limits (events.map recorded) m)
      (history limits events m) := by
  induction events generalizing m past with
  | nil => exact .nil h
  | cons t rest ih =>
    have hfirst := marked_after limits t hm h
    exact hfirst.append (ih (hfirst.before.inCalendar hm) hfirst.remembers)

end Traffic

/-! ## Refusals -/

/-- An attempt ended as in `x`, and `after` is what happened since. -/
def EndsBefore (marks : List Mark) (x : Settlement) (after : List Mark) : Prop :=
  ∃ before mark, marks = before ++ mark :: after ∧ mark.ending? = some x

/-- What a source refuses is kept to, and for no longer than it has to be. -/
structure Contained (b : Breaker) (marks : List Mark) : Prop where
  quota : ∀ x after, EndsBefore marks x after → x.answer = .error (.rateLimited none) →
    ∀ c ∈ after.flatMap Mark.calls, c.source = x.source → x.instant.day < c.instant.day
  wait : ∀ x after, EndsBefore marks x after → ∀ w, x.answer = .error (.rateLimited (some w)) →
    (x.instant.plus w).InCalendar →
    ∀ c ∈ after.flatMap Mark.calls, c.source = x.source → x.instant.plus w ≤ c.instant
  cooldown : ∀ x after, EndsBefore marks x after → ∀ detail,
    x.answer = .error (.unavailable detail) → b.threshold ≤ x.inRow →
    ∀ c ∈ after.flatMap Mark.calls, c.source = x.source →
      x.instant.plus b.cooldown.addable ≤ c.instant
  gate : ∀ before source gate instant after, marks = before ++ .gated source gate instant :: after →
    (gate = .opened ↔ Clear b (before.filterMap Mark.ending?) source instant)
  attempt : ∀ t, .attempted t ∈ marks → t.Orderly

namespace Lawful

variable {breaker : Breaker} {marks after : List Mark}

/-- A call is made only when the end of an attempt before it no longer counts. -/
theorem isOver (h : Lawful breaker [] marks) {x : Settlement} (hx : EndsBefore marks x after)
    {c : Call} (hc : c ∈ after.flatMap Mark.calls) (hsource : c.source = x.source) :
    x.Over breaker c.instant := by
  obtain ⟨before, mark, rfl, hending⟩ := hx
  obtain ⟨later, hlater, hcall⟩ := List.mem_flatMap.1 hc
  obtain ⟨between, rest, rfl⟩ := List.append_of_mem hlater
  have hsplit : before ++ mark :: (between ++ later :: rest)
      = (before ++ mark :: between) ++ later :: rest := by
    rw [List.append_assoc, List.cons_append]
  rw [hsplit] at h
  have hpast : x ∈ (before ++ mark :: between).filterMap Mark.ending? :=
    List.mem_filterMap.2 ⟨mark, List.mem_append_right _ List.mem_cons_self, hending⟩
  cases later with
  | gated source gate instant => exact absurd hcall List.not_mem_nil
  | attempted t => exact h.of_split.2 c hcall x hpast hsource.symm
  | reported y => exact absurd hcall List.not_mem_nil

/-- A lawful history contains every rate limit. -/
theorem contained (h : Lawful breaker [] marks)
    (hdated : ∀ x ∈ marks.filterMap Mark.ending?, x.instant.InCalendar) :
    Contained breaker marks where
  quota x after hx hanswer c hc hsource :=
    (Settlement.over_of_quota hanswer).1 (h.isOver hx hc hsource)
  wait x after hx w hanswer hin c hc hsource := by
    have hover := (Settlement.over_of_wait hanswer).1 (h.isOver hx hc hsource)
    obtain ⟨before, mark, rfl, hending⟩ := hx
    have hstart := hdated x (List.mem_filterMap.2
      ⟨mark, List.mem_append_right _ List.mem_cons_self, hending⟩)
    rwa [Duration.addable_of_inCalendar hstart hin] at hover
  cooldown x after hx detail hanswer htripped c hc hsource :=
    (Settlement.over_of_failure hanswer).1 (h.isOver hx hc hsource) htripped
  gate before source gate instant after hsplit := by
    rw [hsplit] at h
    exact h.of_split
  attempt t ht := by
    obtain ⟨before, after, rfl⟩ := List.append_of_mem ht
    exact h.of_split.1

end Lawful

/-- **Rate limits are contained.** Engines with any orders and settings share a limiter from its
start, other attempts are reported to it, its gates are read and time passes. A source whose quota is
spent is not called again on that day, one that wants a wait is not called before it is over, and one
that tripped the breaker is not called before the cooldown is over, where one beyond the longest time
counts as a year. A gate is open exactly when all of that has passed. One attempt calls its source at
most twice, and the second time only after it slept through a wait that the source asked for. Where
the calendar ends before a wait or a cooldown does, the program has ended with it and nothing is
called. -/
theorem rate_limits_are_contained (limits : Limits) (events : List (Traffic ω)) (m : Market ω)
    (hfresh : m.pace.limiter = {}) (hm : m.now.InCalendar) :
    Contained limits.breaker (Traffic.history limits events m.recording)
      ∧ (Traffic.run limits (events.map .recorded) m.recording).outside.calls
        = (Traffic.history limits events m.recording).flatMap Mark.calls
      ∧ (Traffic.run limits (events.map .recorded) m.recording).plain
        = Traffic.run limits events m := by
  have hmarked := Traffic.marked_run (m := m.recording) limits events hm
    (Market.remembers_fresh hfresh)
  refine ⟨hmarked.lawful.contained hmarked.dated, ?_,
    Traffic.run_recorded limits events m.recording⟩
  have hrecord := hmarked.record
  rw [hrecord]
  rfl

/-! ## A cooldown that is too long to be kept to -/

/-- A source that is never there. -/
def Sources.down : Sources Unit where
  configured _ := true
  ask _ _ _ world := (.error (.unavailable "down"), world)

/-- Rules with a cooldown beyond the longest time. -/
def Limits.endless : Limits where
  breaker := { threshold := 1, cooldown := .ofSeconds 10000000000000000 }

/-- An engine whose only source is never there. -/
def Engine.down : Engine Unit where
  sources := .down
  settings := { order := ["yahoo"], isinOrder := [] }
  limits := .endless

/-- A query for a week of prices. -/
def Query.week : Query := ⟨"GSK", "L", ⟨⟨19723⟩, ⟨19727⟩⟩⟩

namespace Traffic

/-- The source is asked, and again a year and a day later. -/
def yearApart : List (Traffic Unit) := [.fetch .down .week, .wait (.ofDays 366), .fetch .down .week]

/-- Noon of a day on which nothing was asked before. -/
def noon : Market Unit := ⟨{ clock := .noonOf ⟨19732⟩ }, ()⟩

end Traffic

/-- Two fetches a year apart, with a cooldown without end. -/
theorem rate_limits_are_contained_year_apart :
    Traffic.noon.pace.limiter = {} ∧ Traffic.noon.now.InCalendar
      ∧ Contained Limits.endless.breaker
        (Traffic.history .endless Traffic.yearApart Traffic.noon.recording)
      ∧ (Traffic.run .endless (Traffic.yearApart.map .recorded) Traffic.noon.recording).outside.calls
        = (Traffic.history .endless Traffic.yearApart Traffic.noon.recording).flatMap Mark.calls
      ∧ (Traffic.run .endless (Traffic.yearApart.map .recorded) Traffic.noon.recording).plain
        = Traffic.run .endless Traffic.yearApart Traffic.noon :=
  ⟨rfl, by decide,
    rate_limits_are_contained .endless Traffic.yearApart Traffic.noon rfl (by decide)⟩

namespace Engine

/-- A source that is down answers that it is unavailable. -/
theorem call_down (m : Market (Recorded Unit)) :
    down.recorded.call "yahoo" .week m = (.error (.unavailable "down"),
      (Market.mk { m.pace with clock := m.pace.clock.advance .zero }
        ⟨(), m.outside.calls ++ [⟨"yahoo", .week, m.now, .error (.unavailable "down")⟩]⟩).withStanding
        "yahoo" fun s => s.fail Limits.endless.breaker (m.pace.clock.advance .zero).now) := rfl

/-- The attempt is one call, and one more failure in a row. -/
theorem trial_down (m : Market (Recorded Unit)) :
    ∃ slept inRow, down.trial "yahoo" .week m
      = ⟨[⟨"yahoo", .week, m.now, .error (.unavailable "down")⟩], slept, .ofSeconds 30,
        ⟨"yahoo", .error (.unavailable "down"), (m.pace.clock.advance .zero).now, inRow⟩⟩
      ∧ inRow = (m.standing "yahoo").failures + 1 := by
  rw [trial_eq (call_down m) rfl]
  refine ⟨_, _, rfl, ?_⟩
  rw [Market.standing_withStanding_self, Standing.failures_fail]
  rfl

/-- With its gate open, the source is called. -/
theorem visit_down {m : Market (Recorded Unit)} (hopen : (m.gate "yahoo").1 = .opened) :
    down.visitMarks .week "yahoo" m
        = [.gated "yahoo" .opened m.now, .attempted (down.trial "yahoo" .week (m.gate "yahoo").2)]
      ∧ (down.recorded.visit .week "yahoo" [] m).2.2
        = (down.recorded.call "yahoo" .week (m.gate "yahoo").2).2 := by
  have hconfigured : down.sources.configured "yahoo" = true := rfl
  have hrecorded : down.recorded.sources.configured "yahoo" = true := rfl
  constructor
  · rw [visitMarks, if_pos hconfigured, if_pos hopen, hopen]
  · rw [visit_eq, if_pos hrecorded, if_pos hopen, call_down]

/-- Where there is one source, a fetch is a visit to it. -/
theorem fetch_down (m : Market (Recorded Unit)) :
    down.fetchMarks .week m = down.visitMarks .week "yahoo" m
      ∧ (down.recorded.fetch .week m).2 = (down.recorded.visit .week "yahoo" [] m).2.2 := by
  have hdays : Query.week.window.businessDayCount = 5 := by decide
  have horder : down.orderFor "GSK" = ["yahoo"] := by simp [orderFor, down]
  have hmarks : down.fetchMarks .week m = down.walkMarks .week (down.orderFor "GSK") [] m := by
    unfold fetchMarks
    rw [hdays, if_neg (by decide)]
    rfl
  have hfetch : down.recorded.fetch .week m
      = down.recorded.walk .week (down.orderFor "GSK") [] m := by
    rw [fetch_def]
    rw [hdays, if_neg (by decide)]
    rfl
  rw [hmarks, hfetch, horder]
  simp only [walkMarks, walk_cons_def, walk_nil, ite_self, List.append_nil, true_and]

end Engine

/-- Where nothing is held against a source its gate is open. -/
theorem Market.gate_of_fresh {ω : Type} {m : Market ω} {source : String}
    (h : m.standing source = {}) : (m.gate source).1 = .opened := by
  show ((m.standing source).gate m.now).1 = _
  rw [h]
  rfl

namespace Traffic

/-- At noon nothing is held against the source. -/
theorem gate_noon {m : Market (Recorded Unit)} (hm : m = noon.recording) :
    (m.gate "yahoo").1 = .opened ∧ (m.gate "yahoo").2.standing "yahoo" = {}
      ∧ (m.gate "yahoo").2.pace.clock.advance .zero = .noonOf ⟨19732⟩ := by
  have hfresh : m.standing "yahoo" = {} := by
    rw [hm]
    simp [Market.standing, Market.recording, noon, Limiter.standing]
  refine ⟨Market.gate_of_fresh hfresh, ?_, ?_⟩
  · have hgate : (m.gate "yahoo").2 = m.withStanding "yahoo" fun s => (s.gate m.now).2 := rfl
    rw [hgate, Market.standing_withStanding_self, hfresh]
    rfl
  · rw [hm]
    decide

/-- The market a year and a day after an attempt. -/
def yearAfter (m : Market (Recorded Unit)) : Market (Recorded Unit) :=
  after .endless (Engine.down.recorded.call "yahoo" .week m).2 (.wait (.ofDays 366))

/-- The breaker was tripped at noon, and the gate is open a year and a day later. -/
theorem gate_yearAfter {m : Market (Recorded Unit)} (hstanding : m.standing "yahoo" = {})
    (hclock : m.pace.clock.advance .zero = .noonOf ⟨19732⟩) :
    ((yearAfter m).gate "yahoo").1 = .opened
      ∧ (yearAfter m).now = (Clock.noonOf ⟨20098⟩).now := by
  obtain ⟨m₁, hm₁⟩ : ∃ m₁, m₁ = (Engine.down.recorded.call "yahoo" .week m).2 := ⟨_, rfl⟩
  have hlater : yearAfter m = after .endless m₁ (.wait (.ofDays 366)) := by rw [hm₁, yearAfter]
  have hfailed : m₁.pace.clock = .noonOf ⟨19732⟩ ∧ m₁.standing "yahoo"
      = Standing.fail {} Limits.endless.breaker (Clock.noonOf ⟨19732⟩).now := by
    rw [hm₁, Engine.call_down, Market.standing_withStanding_self, hclock, ← hstanding]
    exact ⟨rfl, rfl⟩
  have hnow : (yearAfter m).now = (Clock.noonOf ⟨20098⟩).now := by
    rw [hlater]
    show (m₁.pace.clock.advance (.ofDays 366)).now = _
    rw [hfailed.1]
    decide
  refine ⟨?_, hnow⟩
  have hwaited : (yearAfter m).standing "yahoo" = m₁.standing "yahoo" := by
    rw [hlater]
    rfl
  show (((yearAfter m).standing "yahoo").gate (yearAfter m).now).1 = _
  rw [hwaited, hfailed.2, hnow]
  decide

/-- With an open gate at first, the history is that of two visits. -/
theorem history_yearApart {m : Market (Recorded Unit)} (hopen : (m.gate "yahoo").1 = .opened) :
    history .endless yearApart m = Engine.down.visitMarks .week "yahoo" m
      ++ Engine.down.visitMarks .week "yahoo" (yearAfter (m.gate "yahoo").2) := by
  show Engine.down.fetchMarks .week m ++ ([] ++ (Engine.down.fetchMarks .week
    (after .endless (Engine.down.recorded.fetch .week m).2 (.wait (.ofDays 366))) ++ [])) = _
  rw [(Engine.fetch_down m).1, (Engine.fetch_down _).1, (Engine.fetch_down m).2,
    (Engine.visit_down hopen).2, List.append_nil, List.nil_append, yearAfter]

end Traffic

/-- The source tripped the breaker and is called before its cooldown is over. -/
theorem cooldown_is_cut_short :
    ∃ x after c,
      EndsBefore (Traffic.history .endless Traffic.yearApart Traffic.noon.recording) x after
      ∧ x.answer = .error (.unavailable "down") ∧ Limits.endless.breaker.threshold ≤ x.inRow
      ∧ c ∈ after.flatMap Mark.calls ∧ c.source = x.source
      ∧ c.instant < x.instant.plus Limits.endless.breaker.cooldown := by
  obtain ⟨m, hm⟩ : ∃ m, m = Traffic.noon.recording := ⟨_, rfl⟩
  obtain ⟨hopen, hstanding, hclock⟩ := Traffic.gate_noon hm
  obtain ⟨hreopen, hnow⟩ := Traffic.gate_yearAfter hstanding hclock
  -- each of the two visits is one attempt, which is one call
  obtain ⟨slept, inRow, htrial, hcount⟩ := Engine.trial_down (m.gate "yahoo").2
  obtain ⟨slept', inRow', htrial', -⟩ :=
    Engine.trial_down ((Traffic.yearAfter (m.gate "yahoo").2).gate "yahoo").2
  rw [← hm, Traffic.history_yearApart hopen, (Engine.visit_down hopen).1,
    (Engine.visit_down hreopen).1, htrial, htrial']
  refine ⟨_, _, _, ⟨[_], _, rfl, rfl⟩, rfl, ?_, List.mem_singleton_self _, rfl, ?_⟩
  · rw [hcount]
    exact Nat.le_add_left _ _
  · have hread : ∀ m : Market (Recorded Unit), (m.gate "yahoo").2.now = m.now := fun _ => rfl
    show ((Traffic.yearAfter (m.gate "yahoo").2).gate "yahoo").2.now
      < ((m.gate "yahoo").2.pace.clock.advance .zero).now.plus Limits.endless.breaker.cooldown
    rw [hread, hclock, hnow]
    decide

end DailyBars
