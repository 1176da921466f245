import DailyBars.Proofs.Store.Session

/-! # Checked spans claim nothing that was lost

The series and the span are written one after the other, and either write may fail. A span is only
recorded once its rows are stored, so on every covered day the series has the row of the last answer
for that day: `Session.Accounted` is kept by every load, whichever of its writes fail.
-/

namespace DailyBars

variable {σ ω : Type} {storage : Storage σ}

/-! ## The last answer for a day -/

/-- The last of these fetches that was answered for a day. -/
def lastAnswer? (fetches : List Fetched) (d : Day) : Option Fetched :=
  (fetches.filter fun f => f.merged.answered && f.range.contains d).getLast?

/-- Fetches of other ranges do not matter. -/
theorem lastAnswer?_append_of_not_contains (fetches : List Fetched) {later : List Fetched} {d : Day}
    (h : ∀ f ∈ later, f.range.contains d = false) :
    lastAnswer? (fetches ++ later) d = lastAnswer? fetches d := by
  have hnone : later.filter (fun f => f.merged.answered && f.range.contains d) = [] := by
    rw [List.filter_eq_nil_iff]
    intro f hf
    rw [h f hf, Bool.and_false]
    exact Bool.false_ne_true
  rw [lastAnswer?, lastAnswer?, List.filter_append, hnone, List.append_nil]

/-- The only fetch of a day among the last ones is the last answer. -/
theorem lastAnswer?_append_of_unique (fetches : List Fetched) {later : List Fetched} {d : Day}
    {f : Fetched} (hf : f ∈ later) (hanswered : f.merged.answered = true)
    (hd : f.range.contains d = true) (hunique : ∀ g ∈ later, g.range.contains d = true → g = f) :
    lastAnswer? (fetches ++ later) d = some f := by
  have hmem : f ∈ later.filter fun f => f.merged.answered && f.range.contains d := by
    rw [List.mem_filter, hanswered, hd]
    exact ⟨hf, rfl⟩
  have hlast :
      (later.filter fun f => f.merged.answered && f.range.contains d).getLast? = some f := by
    cases hgot : (later.filter fun f => f.merged.answered && f.range.contains d).getLast? with
    | none =>
      rw [List.getLast?_eq_none_iff.1 hgot] at hmem
      cases hmem
    | some g =>
      obtain ⟨hg, hcontains⟩ := List.mem_filter.1 (List.mem_of_getLast? hgot)
      rw [hunique g hg (Bool.and_eq_true_iff.1 hcontains).2]
  rw [lastAnswer?, List.filter_append, List.getLast?_append, hlast]
  rfl

/-- What the loads of a key fetched, in order. -/
def fetchesOf (storage : Storage σ) (key : SeriesKey) (log : List (Entry σ ω)) : List Fetched :=
  (log.filter fun e => e.key = key).flatMap fun e => e.fetched storage

/-- The fetches of two logs in a row are those of both, -/
theorem fetchesOf_append (storage : Storage σ) (key : SeriesKey) (log later : List (Entry σ ω)) :
    fetchesOf storage key (log ++ later)
      = fetchesOf storage key log ++ fetchesOf storage key later := by
  rw [fetchesOf, List.filter_append, List.flatMap_append]
  rfl

/-- those of a load are of its key, -/
theorem fetchesOf_singleton (storage : Storage σ) (e : Entry σ ω) :
    fetchesOf storage e.key [e] = e.fetched storage := by
  simp [fetchesOf]

/-- and of no other. -/
theorem fetchesOf_singleton_of_ne (storage : Storage σ) {key : SeriesKey} {e : Entry σ ω}
    (h : e.key ≠ key) : fetchesOf storage key [e] = [] := by
  simp [fetchesOf, h]

/-! ## What is accounted for -/

/-- The row that is held on a day is the one that the last answer for it gave, or there is none if
it gave none. -/
def Held.Accounts (h : Held) (key : SeriesKey) (fetches : List Fetched) (d : Day) : Prop :=
  ∃ f, lastAnswer? fetches d = some f ∧ Series.at? h.rows d
    = (Series.at? f.merged.bars d).map (Bar.tagged key.symbol key.exchange)

/-- After the loads of a log, every day that is covered on a day not before any of them is
accounted for. -/
structure Session.Accounted (view : storage.View) (key : SeriesKey) (log : List (Entry σ ω))
    (s : Session σ ω) : Prop where
  clean : s.Clean view key
  past : ∀ e ∈ log, e.today ≤ s.state.today
  accounts : ∀ t, (∀ e ∈ log, e.today ≤ t) → ∀ d,
    Window.Covers (((view.texts s.state.storage).held key).covered t) d →
      ((view.texts s.state.storage).held key).Accounts key (fetchesOf storage key log) d

namespace Grown

/-- A cycle accounts for what it covers if what was covered before is accounted for. -/
theorem accounts {key : SeriesKey} {today : Day} {h h' : Held} {d : Delta} {stored : Bool}
    (g : Grown key today h d stored h') (htagged : h.Tagged key) {fetches : List Fetched}
    (hbefore : ∀ x, Window.Covers (h.covered today) x → h.Accounts key fetches x) {t x : Day}
    (ht : today ≤ t) (hx : Window.Covers (h'.covered t) x) :
    h'.Accounts key (fetches ++ d.fetched) x := by
  -- a covered day is not asked for, so its last answer and its row stay
  have hcovered : Window.Covers (h.covered today) x → h'.Accounts key (fetches ++ d.fetched) x := by
    intro hcovers
    obtain ⟨f, hlast, hrow⟩ := hbefore x hcovers
    have hoff : ∀ f ∈ d.fetched, f.range.contains x = false := by
      intro f hf
      rw [Bool.eq_false_iff]
      intro hcontains
      exact g.sound.not_covers hf hcontains (g.covered ▸ hcovers)
    refine ⟨f, ?_, ?_⟩
    · rw [lastAnswer?_append_of_not_contains fetches hoff, hlast]
    · rw [g.at?_of_covers htagged hcovers, hrow]
  cases stored with
  | false => exact hcovered (h.covers_mono ht (g.covers_of_not_stored.1 hx))
  -- the ranges do not meet, so only one of them has the day
  | true =>
    rcases g.sound.covers_answered.1 (g.covers_answered ht hx) with
      hcovers | ⟨f, hf, hanswered, hfx⟩
    · exact hcovered (g.covered ▸ hcovers)
    · refine ⟨f, ?_, g.at?_of_fetched htagged hf hfx⟩
      exact lastAnswer?_append_of_unique fetches hf hanswered hfx
        fun g' hg' hcontains => g.sound.fetched_unique hg' hf hcontains hfx

end Grown

namespace Session

variable {view : storage.View} {key : SeriesKey} {log : List (Entry σ ω)}

/-- On an empty storage no fetch is to be accounted for. -/
theorem accounted_of_empty {s : Session σ ω} (hempty : view.Empty s.state.storage)
    (hnow : s.state.market.now.InCalendar) (key : SeriesKey) : s.Accounted view key [] where
  clean := clean_of_empty hempty hnow key
  past := fun e he => absurd he List.not_mem_nil
  accounts := by
    intro t _ d hd
    rw [Texts.covered_of_none (hempty.texts _) (hempty.texts _)] at hd
    exact absurd hd (Window.not_covers_none d)

/-- A step that leaves the files of the key alone leaves what is accounted for. -/
theorem accounted_of_texts {s s' : Session σ ω} (h : s.Accounted view key log)
    (hclean : s'.Clean view key) (htoday : s.state.today ≤ s'.state.today)
    (htexts : ∀ n, key.Owns n → view.texts s'.state.storage n = view.texts s.state.storage n) :
    s'.Accounted view key log where
  clean := hclean
  past := fun e he => Int.le_trans (h.past e he) htoday
  accounts := by
    rw [Texts.held_congr htexts]
    exact h.accounts

end Session

namespace Entry

variable {view : storage.View} {e : Entry σ ω} {key : SeriesKey} {log : List (Entry σ ω)}

/-- A load keeps what is accounted for, whichever of its writes fail. -/
theorem accounted_after (hkey : key.Valid) (h : e.before.Accounted view key log) :
    (e.after storage).Accounted view key (log ++ [e]) := by
  have hclean : (e.after storage).Clean view key := clean_after hkey h.clean
  have htoday := e.today_le_after view h.clean.toSound
  have hpast : ∀ e' ∈ log ++ [e], e'.today ≤ (e.after storage).state.today := by
    rw [List.forall_mem_append, List.forall_mem_singleton]
    exact ⟨fun e' he' => Int.le_trans (h.past e' he') htoday, htoday⟩
  refine ⟨hclean, hpast, fun t ht d hd => ?_⟩
  rw [List.forall_mem_append, List.forall_mem_singleton] at ht
  rcases effect_of_clean hkey h.clean with ⟨htexts, -⟩ | ⟨hke, report, hanswer, hcycle⟩
  · rw [Texts.held_congr htexts] at hd ⊢
    -- what the program did not outlive was not asked for a day that is covered
    have hoff : ∀ f ∈ fetchesOf storage key [e], f.range.contains d = false := by
      intro f hf
      by_cases hke : e.key = key
      · subst hke
        rw [fetchesOf_singleton] at hf
        rw [Bool.eq_false_iff]
        intro hfd
        refine e.not_covers_of_passed_of_clean h.clean (e.range_mem_passed hf) hfd ?_
        exact Held.covers_mono _ ht.2 hd
      · rw [fetchesOf_singleton_of_ne storage hke] at hf
        cases hf
    obtain ⟨f, hlast, hrow⟩ := h.accounts t ht.1 d hd
    rw [fetchesOf_append]
    exact ⟨f, (lastAnswer?_append_of_not_contains _ hoff).trans hlast, hrow⟩
  · subst hke
    have hgrown := hcycle.grown e.inCalendar h.clean.inCalendar
    rw [fetchesOf_append, fetchesOf_singleton, e.fetched_of_fresh hanswer]
    exact hgrown.accounts h.clean.tagged (h.accounts e.today h.past) ht.2 hd

end Entry

namespace Session

variable {view : storage.View} {key : SeriesKey} {log : List (Entry σ ω)}

/-- A forward step keeps the account. -/
theorem accounted_step {s : Session σ ω} (hkey : key.Valid) (h : s.Accounted view key log)
    {a : Step ω} (ha : a.Forward) :
    (s.step storage a).Accounted view key (log ++ (s.entry? a).toList) := by
  have hclean := clean_step hkey h.clean a
  have htoday := today_le_step h.clean.toSound ha
  have hquiet : (s.step storage a).state.storage = s.state.storage →
      (s.step storage a).Accounted view key (log ++ []) := by
    intro hstorage
    rw [List.append_nil]
    exact accounted_of_texts h hclean htoday fun n _ => by rw [hstorage]
  cases a with
  | load symbol exchange requested hrequested =>
    exact Entry.accounted_after (e := ⟨s, symbol, exchange, requested, hrequested⟩) hkey h
  | wait => exact hquiet rfl
  | setClock => exact absurd ha id
  | turn => exact hquiet rfl
  | reopen => exact hquiet rfl

/-- A run accounts for what is covered at its end. -/
theorem accounted_run {s : Session σ ω} (hkey : key.Valid) (h : s.Accounted view key log)
    {steps : List (Step ω)} (hforward : ∀ a ∈ steps, a.Forward) :
    (s.run storage steps).Accounted view key (log ++ s.log storage steps) := by
  induction steps generalizing s log with
  | nil =>
    rw [Session.log, List.append_nil]
    exact h
  | cons a rest ih =>
    rw [Session.log, ← List.append_assoc]
    exact ih (accounted_step hkey h (hforward a (by simp))) fun b hb => hforward b (by simp [hb])

end Session

/-! ## Series that could not be stored -/

/-- The step is no load of the key. -/
def Step.Skips (key : SeriesKey) : Step ω → Prop
  | load symbol exchange _ _ => SeriesKey.of symbol exchange ≠ key
  | _ => True

/-- The files of the key are those of these texts, and the memo holds nothing for it. -/
structure Session.Unsaved (view : storage.View) (key : SeriesKey) (t : Texts)
    (s : Session σ ω) : Prop where
  clean : s.Clean view key
  texts : ∀ n, key.Owns n → view.texts s.state.storage n = t n
  forgotten : s.state.Forgotten key

/-- The load passes these ranges to the engine one after the other, up to the one at which the
program ends, if it does. -/
structure Entry.PassesOn (storage : Storage σ) (e : Entry σ ω) (ranges : List Window) : Prop where
  inOrder : e.passed storage <+: ranges
  some : ranges ≠ [] → e.passed storage ≠ []
  all : e.answer storage ≠ .error .outsideCalendar → e.passed storage = ranges

/-- A load that could not store the series left nothing behind, and the next load of the same
request on the same day asks the engine again for the same ranges, unless the program ends at one of
them. -/
structure Entry.Retried (storage : Storage σ) (view : storage.View) (e : Entry σ ω) : Prop where
  unchanged : ∀ n, e.key.Owns n →
    view.texts (e.after storage).state.storage n = view.texts e.before.state.storage n
  forgotten : (e.after storage).state.Forgotten e.key
  asked : ∀ between : List (Step ω), (∀ a ∈ between, a.Skips e.key) → ∀ e' : Entry σ ω,
    e'.before = (e.after storage).run storage between → e'.key = e.key →
      e'.requested = e.requested → e'.today = e.today → e'.before.offline = false →
        e'.PassesOn storage (e.passed storage)

namespace Entry

variable {view : storage.View} {e : Entry σ ω} {key : SeriesKey} {t : Texts}

/-- The request of an answered load is not empty, and its key is well formed. -/
theorem valid_of_fresh (hs : e.before.Sound view) {report : Report}
    (hanswer : e.answer storage = .ok (.fresh report)) :
    e.key.Valid ∧ e.requested.isEmpty = false
      ∧ (report.stored = false → (e.after storage).state.Forgotten e.key) := by
  have hloaded := e.loaded view hs
  rw [hanswer] at hloaded
  generalize (e.after storage).state = s' at hloaded ⊢
  cases hloaded with
  | fresh t _ _ hkey hrequested hcycle hmemo hforgotten => exact ⟨hkey, hrequested, hforgotten⟩

/-- A load whose rows are lost leaves the key unsaved. -/
theorem unsaved_of_lost (hclean : e.before.Clean view e.key) {report : Report}
    (hanswer : e.answer storage = .ok (.fresh report)) (hlost : report.stored = false) :
    (e.after storage).Unsaved view e.key (view.texts e.before.state.storage) := by
  obtain ⟨hkey, -, hforgotten⟩ := valid_of_fresh hclean.toSound hanswer
  refine ⟨clean_after hkey hclean, ?_, hforgotten hlost⟩
  rcases effect_of_clean hkey hclean with ⟨htexts, -⟩ | ⟨-, report', hanswer', hcycle⟩
  · exact htexts
  · rw [hanswer, Except.ok.injEq, Answer.fresh.injEq] at hanswer'
    subst hanswer'
    rintro n (rfl | rfl)
    · rcases hcycle.written.series with ⟨-, -, hsame⟩ | ⟨-, hstored, -⟩ | ⟨-, -, hsame⟩
      · exact hsame
      · rw [hlost] at hstored
        cases hstored
      · exact hsame
    · rcases hcycle.written.span with hsame | ⟨hstored, -⟩
      · exact hsame
      · rw [hlost] at hstored
        cases hstored

/-- Loads of other keys remember nothing for the key. -/
theorem forgotten_after (hs : e.before.Sound view) (hne : e.key ≠ key)
    (hforgotten : e.before.state.Forgotten key) : (e.after storage).state.Forgotten key := by
  have hloaded := e.loaded view hs
  generalize e.answer storage = r at hloaded
  generalize (e.after storage).state = s' at hloaded ⊢
  cases hloaded with
  | nothing => exact hforgotten
  | invalid => exact hforgotten
  | remembered rows s' hkey hgives hstorage hmarket hmemo =>
    exact fun k v h => hforgotten k v (hmemo k v h)
  | refused err s' hkey hrefused =>
    unfold StoreState.Forgotten
    rw [hrefused.memo]
    exact hforgotten
  | fresh t report s' hkey hrequested hcycle hmemo =>
    intro k v h
    rcases hmemo k v h with hbefore | ⟨-, rfl, -⟩
    · exact hforgotten k v hbefore
    · rintro ⟨hsymbol, hexchange⟩
      exact hne (congr (congrArg SeriesKey.mk hsymbol) hexchange)

/-- What a load asks for when nothing of its key is remembered. -/
theorem passesOn_of_unsaved (hke : e.key = key) (hkey : key.Valid)
    (h : e.before.Unsaved view key t) (htrims : (t.held key).Trims e.today)
    (honline : e.before.offline = false) (hrequested : e.requested.isEmpty = false) :
    e.PassesOn storage (Window.wanted ((t.held key).covered e.today) e.requested e.today) := by
  subst hke
  rw [← Texts.held_congr h.texts] at htrims ⊢
  rcases fresh_of_forgotten hkey h.clean htrims h.forgotten honline hrequested with
    ⟨report, hanswer, hcycle⟩ | ⟨hended, -⟩
  · have hall := e.passed_of_fresh hanswer
    rw [hcycle.map_range] at hall
    rw [← hall]
    exact ⟨List.prefix_rfl, id, fun _ => rfl⟩
  · obtain ⟨hfront, hsome, -⟩ := RollingStore.passed_askFor e.before.engine e.key
      (Window.wanted (((view.texts e.before.state.storage).held e.key).covered e.today) e.requested
        e.today) e.before.state.market
    rw [← e.asked_of_clean_of_ended hkey h.clean htrims hended] at hfront hsome
    exact ⟨hfront, hsome, fun hnot => absurd hended hnot⟩

end Entry

namespace Session

variable {view : storage.View} {key : SeriesKey} {t : Texts}

/-- A step that skips the key leaves it unsaved. -/
theorem unsaved_step {s : Session σ ω} (hkey : key.Valid) (h : s.Unsaved view key t) {a : Step ω}
    (ha : a.Skips key) : (s.step storage a).Unsaved view key t := by
  have hclean := clean_step hkey h.clean a
  cases a with
  | load symbol exchange requested hrequested =>
    refine ⟨hclean, fun n hn => ?_, ?_⟩
    · rcases Entry.effect_of_clean (e := ⟨s, symbol, exchange, requested, hrequested⟩) hkey h.clean
        with ⟨htexts, -⟩ | ⟨hke, -⟩
      · exact (htexts n hn).trans (h.texts n hn)
      · exact absurd hke ha
    · exact Entry.forgotten_after (e := ⟨s, symbol, exchange, requested, hrequested⟩)
        h.clean.toSound ha h.forgotten
  | wait => exact ⟨hclean, h.texts, h.forgotten⟩
  | setClock => exact ⟨hclean, h.texts, h.forgotten⟩
  | turn => exact ⟨hclean, h.texts, h.forgotten⟩
  | reopen => exact ⟨hclean, h.texts, fun k v hgives => absurd hgives Memo.gives_empty⟩

end Session

/-- A load of a clean session that could not store the series is made again by the next one. -/
theorem Entry.retried_of_lost {view : storage.View} {e : Entry σ ω}
    (hclean : e.before.Clean view e.key) {report : Report}
    (hanswer : e.answer storage = .ok (.fresh report)) (hlost : report.stored = false) :
    e.Retried storage view := by
  obtain ⟨hkey, hrequested, -⟩ := valid_of_fresh hclean.toSound hanswer
  have hunsaved := unsaved_of_lost hclean hanswer hlost
  refine ⟨hunsaved.texts, hunsaved.forgotten, ?_⟩
  intro between hskips e' hbefore hke hsame hday honline
  have hlater : e'.before.Unsaved view e.key (view.texts e.before.state.storage) := by
    rw [hbefore]
    exact (Session.invariant storage hunsaved fun s a ha h =>
      Session.unsaved_step hkey h (hskips a ha)).1
  rw [← hsame] at hrequested
  rcases effect_of_clean hkey hclean with ⟨-, hnot⟩ | ⟨-, report', hanswer', hcycle⟩
  · exact absurd hanswer (hnot rfl report)
  · -- the span that is still there was trimmed on the same day before
    have hagain := passesOn_of_unsaved hke hkey hlater (hday ▸ hcycle.trims) honline hrequested
    rw [hsame, hday] at hagain
    rw [e.passed_of_fresh hanswer', hcycle.map_range]
    exact hagain

/-- In every state that loads reach from an empty storage while its writes may fail, a day for which
the recorded span still counts was answered, and the series has the row of the last answer for it;
and a load that could not store the series changed nothing and is made again by the next one. -/
theorem checked_days_are_stored (storage : Storage σ) (view : storage.View) (s : Session σ ω)
    (hempty : view.Empty s.state.storage) (hnow : s.state.market.now.InCalendar)
    (steps : List (Step ω)) (hforward : ∀ a ∈ steps, a.Forward) :
    (∀ key : SeriesKey, key.Valid → ∃ rows checked,
        (s.run storage steps).stored storage key = .ok rows
        ∧ (s.run storage steps).checked storage key = .ok checked
        ∧ ∀ span, checked = some span → ∀ t, (∀ e ∈ s.log storage steps, e.today ≤ t) → ∀ d,
          Window.Covers (span.settled t) d →
            ∃ f, lastAnswer? (fetchesOf storage key (s.log storage steps)) d = some f
              ∧ Series.at? rows d
                = (Series.at? f.merged.bars d).map (Bar.tagged key.symbol key.exchange))
      ∧ ∀ e : Entry σ ω, e.before = s.run storage steps → ∀ report,
        e.answer storage = .ok (.fresh report) → report.stored = false →
          e.Retried storage view := by
  refine ⟨fun key hkey => ?_, fun e he report hanswer hlost => ?_⟩
  · have haccounted : (s.run storage steps).Accounted view key ([] ++ s.log storage steps) :=
      Session.accounted_run hkey (Session.accounted_of_empty hempty hnow key) hforward
    have hclean := haccounted.clean
    refine ⟨_, _, Session.stored_of_readable hclean.toSound hkey hclean.readable,
      Session.checked_eq hclean.toSound hkey, ?_⟩
    intro span hspan t ht d hd
    refine haccounted.accounts t ht d (Held.covers_of_marks _ ?_)
    obtain ⟨hfirst, hlast, hcheck⟩ := CheckedSpan.covers_settled.1 hd
    exact Or.inr ⟨span, hspan, hfirst, hlast, hcheck⟩
  · have hsound : e.before.Sound view := by
      rw [he]
      exact Session.sound_run ⟨hempty.works, hnow⟩ steps
    have hkey := (Entry.valid_of_fresh hsound hanswer).1
    have hclean : e.before.Clean view e.key := by
      rw [he]
      exact Session.clean_run hkey (Session.clean_of_empty hempty hnow e.key) steps
    exact Entry.retried_of_lost hclean hanswer hlost

/-- After two loads, in which the first write of all failed. -/
theorem checked_days_are_stored_despite_failure : ∃ rows checked,
    ((Session.ofOneBar (0, {})).run (Storage.memory.failing (· == 0)) Step.twoLoads).stored
        (Storage.memory.failing (· == 0)) ⟨"AAPL", "NYSE"⟩ = .ok rows
      ∧ ((Session.ofOneBar (0, {})).run (Storage.memory.failing (· == 0)) Step.twoLoads).checked
        (Storage.memory.failing (· == 0)) ⟨"AAPL", "NYSE"⟩ = .ok checked
      ∧ ∀ span, checked = some span → ∀ t, (∀ e ∈ (Session.ofOneBar (0, {})).log
          (Storage.memory.failing (· == 0)) Step.twoLoads, e.today ≤ t) → ∀ d,
        Window.Covers (span.settled t) d → ∃ f, lastAnswer? (fetchesOf
            (Storage.memory.failing (· == 0)) ⟨"AAPL", "NYSE"⟩ ((Session.ofOneBar (0, {})).log
              (Storage.memory.failing (· == 0)) Step.twoLoads)) d = some f
          ∧ Series.at? rows d = (Series.at? f.merged.bars d).map (Bar.tagged "AAPL" "NYSE") :=
  (checked_days_are_stored (Storage.memory.failing (· == 0))
    (Storage.memoryView.failing (· == 0)) (Session.ofOneBar (0, {}))
    ⟨trivial, Storage.memoryView_empty.texts⟩ (by decide) Step.twoLoads
    (by simp [Step.twoLoads, Step.Forward])).1 ⟨"AAPL", "NYSE"⟩ rfl

end DailyBars
