import DailyBars.Proofs.Merge.Calls
import DailyBars.Proofs.Store.Recall

/-! # Lifetimes of a store

A store may be dropped and built again over the same storage, with a memo of any capacity, while its
sources, their limiter and the clock go on. Every load comes to what the ledger says, and the ledger
knows nothing of memos and lifetimes.
-/

namespace DailyBars

variable {σ ω : Type}

/-- Something that happens while the sources, their limiter and the clock go on. -/
inductive Act (ω : Type) where
  /-- The rows of an instrument are asked for. -/
  | load (symbol exchange : String) (requested : Window) (hrequested : requested.InCalendar)
  /-- Time passes. -/
  | wait (d : Duration)
  /-- The world outside changes. -/
  | turn (f : ω → ω)
  /-- The store is built again over the same storage. -/
  | rebuild (capacity : Nat)

namespace Act

/-- The act is seen by others than the store. -/
def isSeen : Act ω → Bool
  | rebuild _ => false
  | _ => true

/-- The same where calls are put on record. -/
def recorded : Act ω → Act (Recorded ω)
  | load symbol exchange requested h => load symbol exchange requested h
  | wait d => wait d
  | turn f => turn fun world => { world with outside := f world.outside }
  | rebuild capacity => rebuild capacity

end Act

namespace Session

/-- The store as it is built with a memo of some capacity. -/
def built (s : Session σ ω) (capacity : Nat) : Session σ ω :=
  { s with state.memo := .empty capacity }

/-- The session after an act. -/
def act (storage : Storage σ) (s : Session σ ω) : Act ω → Session σ ω
  | .load symbol exchange requested h => (Entry.mk s symbol exchange requested h).after storage
  | .wait d => s.step storage (.wait d)
  | .turn f => s.step storage (.turn (f s.state.market.outside))
  | .rebuild capacity => s.built capacity

/-- What the caller of a load gets. -/
def reply? (storage : Storage σ) (s : Session σ ω) :
    Act ω → Option (Except DataError (List Bar))
  | .load symbol exchange requested h =>
    some ((Entry.mk s symbol exchange requested h).result storage)
  | _ => none

/-- The session after a run of acts. -/
def live (storage : Storage σ) (s : Session σ ω) (acts : List (Act ω)) : Session σ ω :=
  acts.foldl (act storage) s

/-- What the callers get during a run of acts. -/
def replies (storage : Storage σ) (s : Session σ ω) :
    List (Act ω) → List (Except DataError (List Bar))
  | [] => []
  | a :: rest => (s.reply? storage a).toList ++ (s.act storage a).replies storage rest

/-- The session with calls put on record from now on. -/
def recording (s : Session σ ω) : Session σ (Recorded ω) :=
  ⟨s.engine.recorded, s.offline, ⟨s.state.storage, s.state.market.recording, s.state.memo⟩⟩

/-- The calls of sources during a run of acts. -/
def calls (storage : Storage σ) (s : Session σ ω) (acts : List (Act ω)) : List Call :=
  (s.recording.live storage (acts.map Act.recorded)).state.market.outside.calls

end Session

/-! ## Acts on the ledger -/

namespace Ledger

/-- The ledger after an act. -/
def act (engine : Engine ω) (offline : Bool) (l : Ledger ω) : Act ω → Ledger ω
  | .load symbol exchange requested _ => (l.load engine offline symbol exchange requested).2
  | .wait d => { l with market := l.market.withPace fun p => { p with clock := p.clock.advance d } }
  | .turn f => { l with market := { l.market with outside := f l.market.outside } }
  | .rebuild _ => l

/-- What the caller of a load gets. -/
def reply? (engine : Engine ω) (offline : Bool) (l : Ledger ω) :
    Act ω → Option (Except DataError (List Bar))
  | .load symbol exchange requested _ => some (l.load engine offline symbol exchange requested).1
  | _ => none

/-- The ledger after a run of acts. -/
def live (engine : Engine ω) (offline : Bool) (l : Ledger ω) (acts : List (Act ω)) : Ledger ω :=
  acts.foldl (act engine offline) l

/-- What the callers get during a run of acts. -/
def replies (engine : Engine ω) (offline : Bool) (l : Ledger ω) :
    List (Act ω) → List (Except DataError (List Bar))
  | [] => []
  | a :: rest =>
    (l.reply? engine offline a).toList ++ (l.act engine offline a).replies engine offline rest

variable {engine : Engine ω} {offline : Bool}

/-- What is not seen neither changes the ledger nor is replied to. -/
theorem act_of_not_isSeen {a : Act ω} (h : a.isSeen = false) (l : Ledger ω) :
    l.act engine offline a = l ∧ l.reply? engine offline a = none := by
  cases a with
  | load => cases h
  | wait => cases h
  | turn => cases h
  | rebuild => exact ⟨rfl, rfl⟩

/-- The ledger has no lifetimes. -/
theorem live_filter_isSeen (engine : Engine ω) (offline : Bool) (l : Ledger ω)
    (acts : List (Act ω)) :
    l.live engine offline (acts.filter Act.isSeen) = l.live engine offline acts
      ∧ l.replies engine offline (acts.filter Act.isSeen) = l.replies engine offline acts := by
  induction acts generalizing l with
  | nil => exact ⟨rfl, rfl⟩
  | cons a rest ih =>
    cases hseen : a.isSeen with
    | true =>
      rw [List.filter_cons_of_pos hseen]
      obtain ⟨hlive, hreplies⟩ := ih (l.act engine offline a)
      exact ⟨hlive, congrArg ((l.reply? engine offline a).toList ++ ·) hreplies⟩
    | false =>
      rw [List.filter_cons_of_neg (by simp [hseen])]
      obtain ⟨hact, hreply⟩ := act_of_not_isSeen hseen l
      refine ⟨?_, ?_⟩
      · show _ = (l.act engine offline a).live engine offline rest
        rw [hact]
        exact (ih l).1
      · rw [replies, hact, hreply]
        exact (ih l).2

/-! ### Calls on record -/

/-- The ledger without the record of its market. -/
def plain (l : Ledger (Recorded ω)) : Ledger ω := ⟨l.market.plain, l.texts⟩

/-- Putting calls on record changes nothing of what is asked for, also where the program ends. -/
theorem askFor_recorded (e : Engine ω) (key : SeriesKey) (ranges : List Window)
    (m : Market (Recorded ω)) :
    RollingStore.askFor e key ranges m.plain
      = ⟨(RollingStore.askFor e.recorded key ranges m).fetched,
        (RollingStore.askFor e.recorded key ranges m).endedAt,
        (RollingStore.askFor e.recorded key ranges m).market.plain⟩ := by
  induction ranges generalizing m with
  | nil => rfl
  | cons range rest ih =>
    have hfetch := e.fetch?_recorded ⟨key.symbol, key.exchange, range⟩ m
    cases hfetched : e.recorded.fetch? ⟨key.symbol, key.exchange, range⟩ m with
    | error m' =>
      rw [hfetched] at hfetch
      rw [RollingStore.askFor_cons_of_error hfetched,
        RollingStore.askFor_cons_of_error hfetch.symm]
    | ok result =>
      obtain ⟨merged, m'⟩ := result
      rw [hfetched] at hfetch
      rw [RollingStore.askFor_cons_of_ok hfetched, RollingStore.askFor_cons_of_ok hfetch.symm, ih m']
      rfl

/-- What is written and what is answered does not depend on the record. -/
theorem extend_recorded (e : Engine ω) (key : SeriesKey) (requested : Window)
    (ranges : List Window) (l : Ledger (Recorded ω)) :
    (l.extend e.recorded key requested ranges).map id plain
      = l.plain.extend e key requested ranges := by
  have hasked : RollingStore.askFor e key ranges l.plain.market = _ :=
    askFor_recorded e key ranges l.market
  unfold extend
  rw [hasked]
  simp only
  split
  · rfl
  · rfl

/-- Recording does not change a load, -/
theorem load_recorded (e : Engine ω) (offline : Bool) (symbol exchange : String)
    (requested : Window) (l : Ledger (Recorded ω)) :
    (l.load e.recorded offline symbol exchange requested).map id plain
      = l.plain.load e offline symbol exchange requested := by
  by_cases hempty : requested.isEmpty = true
  · rw [load_of_isEmpty hempty, load_of_isEmpty hempty]
    rfl
  · have hordered : requested.isEmpty = false := by simpa using hempty
    cases hcheck : (SeriesKey.of symbol exchange).check with
    | error fault =>
      rw [load_of_invalid hordered hcheck, load_of_invalid hordered hcheck]
      rfl
    | ok u =>
      by_cases htrims : (l.texts.held (.of symbol exchange)).Trims l.market.now.day
      case neg =>
        have hplain : ¬ (l.plain.texts.held (.of symbol exchange)).Trims l.plain.market.now.day :=
          htrims
        rw [load_of_untrimmed hordered hcheck htrims, load_of_untrimmed hordered hcheck hplain]
        rfl
      have hplain : (l.plain.texts.held (.of symbol exchange)).Trims l.plain.market.now.day :=
        htrims
      rw [load_of_valid hordered hcheck htrims, load_of_valid hordered hcheck hplain]
      by_cases hmissing : l.texts.missing (.of symbol exchange) requested l.market.now.day = []
      · have hplain : l.plain.texts.missing (.of symbol exchange) requested
            l.plain.market.now.day = [] := hmissing
        rw [if_pos hmissing, if_pos hplain]
        rfl
      · have hplain : ¬ l.plain.texts.missing (.of symbol exchange) requested
            l.plain.market.now.day = [] := hmissing
        rw [if_neg hmissing, if_neg hplain]
        cases offline with
        | true => rfl
        | false =>
          rw [if_neg Bool.false_ne_true, if_neg Bool.false_ne_true]
          exact extend_recorded e _ requested _ l

/-- nor any other act. -/
theorem act_recorded (e : Engine ω) (offline : Bool) (a : Act ω) (l : Ledger (Recorded ω)) :
    (l.act e.recorded offline a.recorded).plain = l.plain.act e offline a
      ∧ l.reply? e.recorded offline a.recorded = l.plain.reply? e offline a := by
  cases a with
  | load symbol exchange requested h =>
    have hload := load_recorded e offline symbol exchange requested l
    exact ⟨congrArg Prod.snd hload, congrArg (some ∘ Prod.fst) hload⟩
  | wait d => exact ⟨rfl, rfl⟩
  | turn f => exact ⟨rfl, rfl⟩
  | rebuild capacity => exact ⟨rfl, rfl⟩

/-- Putting calls on record changes no reply. -/
theorem replies_recorded (e : Engine ω) (offline : Bool) (acts : List (Act ω))
    (l : Ledger (Recorded ω)) :
    l.replies e.recorded offline (acts.map Act.recorded) = l.plain.replies e offline acts := by
  induction acts generalizing l with
  | nil => rfl
  | cons a rest ih =>
    obtain ⟨hact, hreply⟩ := act_recorded e offline a l
    rw [List.map_cons, replies, replies, hreply, ih, hact]

end Ledger

/-! ## Runs -/

namespace Session

variable {storage : Storage σ} {view : storage.View}

/-- No act changes the engine, or whether the store is offline. -/
theorem act_fixed (storage : Storage σ) (s : Session σ ω) (a : Act ω) :
    (s.act storage a).engine = s.engine ∧ (s.act storage a).offline = s.offline := by
  cases a with
  | load => exact ⟨rfl, rfl⟩
  | wait => exact ⟨rfl, rfl⟩
  | turn => exact ⟨rfl, rfl⟩
  | rebuild => exact ⟨rfl, rfl⟩

/-- A store that is built anew is honest. -/
theorem honest_built {s : Session σ ω} (hs : s.Kept view) (capacity : Nat) :
    (s.built capacity).Honest view where
  toKept := hs.congr rfl rfl
  truthful := .of_empty rfl

/-- Every act does to a store what it does to its ledger. -/
theorem act_refines {s : Session σ ω} (hreliable : view.Reliable)
    (hfaithful : s.engine.sources.Faithful) (hs : s.Honest view) (a : Act ω) :
    s.reply? storage a = (s.state.ledger view).reply? s.engine s.offline a
      ∧ (s.act storage a).state.ledger view = (s.state.ledger view).act s.engine s.offline a
      ∧ (s.act storage a).Honest view := by
  cases a with
  | load symbol exchange requested h =>
    have hrefines := Entry.refines (e := ⟨s, symbol, exchange, requested, h⟩) hreliable hfaithful hs
    refine ⟨congrArg some ?_, hrefines.ledger, Entry.honest_after hreliable hfaithful hs⟩
    rw [Entry.result_eq]
    exact hrefines.result
  | wait d =>
    exact ⟨rfl, rfl, kept_step hs.toKept (.wait d), hs.truthful.mono rfl fun _ _ h => h⟩
  | turn f =>
    exact ⟨rfl, rfl, kept_step hs.toKept (.turn (f s.state.market.outside)),
      hs.truthful.mono rfl fun _ _ h => h⟩
  | rebuild capacity => exact ⟨rfl, rfl, honest_built hs.toKept capacity⟩

/-- A run of acts does to a store what it does to its ledger. -/
theorem live_refines {s : Session σ ω} (hreliable : view.Reliable)
    (hfaithful : s.engine.sources.Faithful) (hs : s.Honest view) (acts : List (Act ω)) :
    s.replies storage acts = (s.state.ledger view).replies s.engine s.offline acts
      ∧ (s.live storage acts).state.ledger view
        = (s.state.ledger view).live s.engine s.offline acts := by
  induction acts generalizing s with
  | nil => exact ⟨rfl, rfl⟩
  | cons a rest ih =>
    obtain ⟨hreply, hledger, hhonest⟩ := act_refines hreliable hfaithful hs a
    obtain ⟨hengine, hoffline⟩ := act_fixed storage s a
    obtain ⟨hreplies, hlive⟩ := ih (by rwa [hengine]) hhonest
    rw [hengine, hoffline, hledger] at hreplies hlive
    refine ⟨?_, hlive⟩
    rw [replies, Ledger.replies, hreply, hreplies]

/-- Stores that are built with different memos and at different times agree. -/
theorem live_built {s : Session σ ω} (hreliable : view.Reliable)
    (hfaithful : s.engine.sources.Faithful) (hs : s.Kept view) (capacity capacity' : Nat)
    (acts : List (Act ω)) :
    (s.built capacity).replies storage acts
        = (s.built capacity').replies storage (acts.filter Act.isSeen)
      ∧ ((s.built capacity).live storage acts).state.ledger view
        = ((s.built capacity').live storage (acts.filter Act.isSeen)).state.ledger view := by
  obtain ⟨hreplies, hlive⟩ :=
    live_refines (s := s.built capacity) hreliable hfaithful (honest_built hs capacity) acts
  obtain ⟨hreplies', hlive'⟩ := live_refines (s := s.built capacity') hreliable hfaithful
    (honest_built hs capacity') (acts.filter Act.isSeen)
  obtain ⟨hsame, hsameReplies⟩ := Ledger.live_filter_isSeen s.engine s.offline
    (s.state.ledger view) acts
  exact ⟨hreplies.trans (hsameReplies.symm.trans hreplies'.symm),
    hlive.trans (hsame.symm.trans hlive'.symm)⟩

end Session

/-- Recorded sources are as faithful as they were. -/
theorem Sources.Faithful.recorded {e : Engine ω} (h : e.sources.Faithful) :
    e.recorded.sources.Faithful :=
  fun source hconfigured q now world => h source hconfigured q now world.outside

/-- Recording does not change which acts are seen. -/
theorem Act.filter_isSeen_map_recorded (acts : List (Act ω)) :
    (acts.map Act.recorded).filter Act.isSeen = (acts.filter Act.isSeen).map Act.recorded := by
  have hsame : Act.isSeen ∘ Act.recorded = (Act.isSeen : Act ω → Bool) := by
    funext a
    cases a <;> rfl
  rw [List.filter_map, hsame]

/-- **The memo and the lifetime of a store are invisible.** Over a storage that never fails and
holds only what a store wrote, with sources that tag their rows as they are asked, a store that is
built again any number of times with memos of any capacity gives the same replies, calls the sources
in the same way and leaves the same files behind as one that is built once and remembers nothing. -/
theorem memo_and_lifetime_are_invisible (storage : Storage σ) (view : storage.View)
    (hreliable : view.Reliable) (s : Session σ ω) (hkept : s.Kept view)
    (hfaithful : s.engine.sources.Faithful) (capacity : Nat) (acts : List (Act ω)) :
    (s.built capacity).replies storage acts
        = (s.built 0).replies storage (acts.filter Act.isSeen)
      ∧ (s.built capacity).calls storage acts = (s.built 0).calls storage (acts.filter Act.isSeen)
      ∧ view.texts ((s.built capacity).live storage acts).state.storage
        = view.texts ((s.built 0).live storage (acts.filter Act.isSeen)).state.storage
      ∧ (s.built capacity).recording.replies storage (acts.map Act.recorded)
        = (s.built capacity).replies storage acts := by
  have hrecording : s.recording.Kept view := hkept.congr rfl rfl
  obtain ⟨hreplies, hledger⟩ := Session.live_built hreliable hfaithful hkept capacity 0 acts
  obtain ⟨-, hrecorded⟩ := Session.live_built (s := s.recording) hreliable hfaithful.recorded
    hrecording capacity 0 (acts.map Act.recorded)
  rw [Act.filter_isSeen_map_recorded] at hrecorded
  refine ⟨hreplies, congrArg (fun l => l.market.outside.calls) hrecorded,
    congrArg Ledger.texts hledger, ?_⟩
  have hplain := Session.live_refines (s := s.built capacity) hreliable hfaithful
    (Session.honest_built hkept capacity) acts
  have hnoted := Session.live_refines (s := s.recording.built capacity) hreliable hfaithful.recorded
    (Session.honest_built hrecording capacity) (acts.map Act.recorded)
  exact hnoted.1.trans ((Ledger.replies_recorded _ _ acts _).trans hplain.1.symm)

/-- A source that has one bar of the last day of every window. -/
def Sources.lastDay : Sources Unit where
  configured source := source == "yahoo"
  ask source q _ outside :=
    (.ok [.flat q.window.last 10 100 q.symbol q.exchange source], outside)

/-- A store in memory with that source, on a Tuesday. -/
def Session.ofLastDay : Session Memory Unit :=
  opened { sources := .lastDay, settings := { order := ["yahoo"] } } {} () (.ofDay ⟨19997⟩ 0) 8

/-- Three business days are asked for, before and after the store is built again, and once more on
the next day together with the day itself. -/
def Act.threeLoads : List (Act Unit) :=
  [.load "AAPL" "NYSE" ⟨⟨19993⟩, ⟨19997⟩⟩ (by decide), .rebuild 2,
    .load "AAPL" "NYSE" ⟨⟨19993⟩, ⟨19997⟩⟩ (by decide), .wait (.ofDays 1),
    .load "AAPL" "NYSE" ⟨⟨19993⟩, ⟨19998⟩⟩ (by decide)]

/-- Three loads around a rebuild, with a memo of eight entries and with none. -/
theorem memo_and_lifetime_are_invisible_in_memory :
    Storage.memoryView.Reliable ∧ Session.ofLastDay.Kept Storage.memoryView
      ∧ Session.ofLastDay.engine.sources.Faithful
      ∧ (Session.ofLastDay.built 8).replies Storage.memory Act.threeLoads
        = (Session.ofLastDay.built 0).replies Storage.memory (Act.threeLoads.filter Act.isSeen)
      ∧ (Session.ofLastDay.built 8).calls Storage.memory Act.threeLoads
        = (Session.ofLastDay.built 0).calls Storage.memory (Act.threeLoads.filter Act.isSeen) := by
  have hkept : Session.ofLastDay.Kept Storage.memoryView :=
    Session.kept_of_empty Storage.memoryView_empty (by decide)
  have hfaithful : Session.ofLastDay.engine.sources.Faithful := by
    rintro source - q now outside rows hrows b hb
    cases hrows
    rw [List.mem_singleton.1 hb]
    rfl
  obtain ⟨hreplies, hcalls, -, -⟩ := memo_and_lifetime_are_invisible Storage.memory
    Storage.memoryView Storage.memoryView_reliable Session.ofLastDay hkept hfaithful 8
    Act.threeLoads
  exact ⟨Storage.memoryView_reliable, hkept, hfaithful, hreplies, hcalls⟩

end DailyBars
