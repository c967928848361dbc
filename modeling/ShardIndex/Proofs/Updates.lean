import ShardIndex.Proofs.Reading
import ShardIndex.Proofs.Refresh
import ShardIndex.Proofs.Views

/-!
# Refreshes from a store that goes on changing

An index is kept up to date by refreshes while its source is written: before and after a refresh,
and also during one.  A key that is written again leaves the hour in which it was, and refreshes
may fail, and cover any hours in any order.

Once the index shows an entry whose window holds that of a record it does so for good, whatever
refreshes come later (`Shows`, which every refresh keeps), and a refresh that ends well makes it
show all that it was handed.  So no update is missed that was written before a refresh of
its hour which ends well (`reader_of_covered`).
-/

namespace ShardIndex

/-- Whether the window of an entry holds that of a record. -/
def Entry.Holds (e : Entry) (r : Record) : Prop :=
  e.startTime ≤ r.startTime ∧ r.endTime ≤ e.endTime

lemma Entry.Holds.merge {e : Entry} {r : Record} (h : e.Holds r) (later : Entry) :
    (e.merge later).Holds r :=
  ⟨(min_le_left _ _).trans h.1, h.2.trans (le_max_left _ _)⟩

lemma Entry.Spans.holds {e : Entry} {before : Option Entry} {records : List Record} {r : Record}
    (h : e.Spans before records) (hr : r ∈ records) : e.Holds r :=
  ⟨h.start.2 (Or.inr ⟨r, hr, rfl⟩), h.stop.2 (Or.inr ⟨r, hr, rfl⟩)⟩

/-! ## What stays shown -/

/-- An index shows a window under a key, and will go on to do so: it has an entry for the key that
holds the window for the next write, one that is committed, and one that readers see. -/
structure Shows {ι : Type} [Index ι] [LawfulIndex ι] (x : ι) (key : Key) (r : Record) :
    Prop where
  current : ∃ e, LawfulIndex.current? x key = some e ∧ e.Holds r
  committed : ∃ e, (LawfulIndex.committed x).get? key = some e ∧ e.Holds r
  reader : ∃ e, (LawfulIndex.reader x).get? key = some e ∧ e.Holds r

/-- Two states of an index in which it holds the same, whatever troubles are ahead of it. -/
structure Alike {ι : Type} [Index ι] [LawfulIndex ι] (x y : ι) : Prop where
  current : LawfulIndex.current? x = LawfulIndex.current? y
  committed : LawfulIndex.committed x = LawfulIndex.committed y
  reader : LawfulIndex.reader x = LawfulIndex.reader y

lemma Alike.inEachView {ι : Type} [Index ι] [LawfulIndex ι] {P : (Key → Option Entry) → Prop}
    {x y : ι} (h : Alike x y) (hy : InEachView P y) : InEachView P x := by
  obtain ⟨current, committed, reader⟩ := hy
  rw [← h.current] at current
  rw [← h.committed] at committed
  rw [← h.reader] at reader
  exact ⟨current, committed, reader⟩

lemma shows_iff {ι : Type} [Index ι] [LawfulIndex ι] {x : ι} {key : Key} {r : Record} :
    Shows x key r ↔ InEachView (fun g => ∃ e, g key = some e ∧ e.Holds r) x :=
  ⟨fun h => ⟨h.current, h.committed, h.reader⟩, fun h => ⟨h.current, h.committed, h.reader⟩⟩

/-- A row that is merged leaves under each key an entry that holds what the one before held. -/
lemma exists_update_holds {g : Key → Option Entry} {key : Key} {r : Record}
    (h : ∃ e, g key = some e ∧ e.Holds r) (k : Key) (later : Entry) :
    ∃ e, WriteMode.upsert.update g k later key = some e ∧ e.Holds r := by
  obtain ⟨before, hbefore, hholds⟩ := h
  rw [WriteMode.update]
  by_cases hk : key = k
  · rw [if_pos hk, ← hk, hbefore]
    exact ⟨before.merge later, rfl, hholds.merge later⟩
  · rw [if_neg hk]
    exact ⟨before, hbefore, hholds⟩

namespace Bootstrap

open Identity RecordStream

/-! ## A refresh -/

section Calls

variable {σ ρ ι : Type} [ColumnStore σ] [Resolver ρ] [Index ι]
variable {settings : Settings} {schemas : Schema.Registry} {handed : σ} {shard : Shard}
  {first last : Int} {parallelism : Option Nat} {schedule : List Choice} {n : Nat}
  {result : Except Failure Nat} {w w' : World ρ ι} {key : Key} {r : Record}

lemma failure_eq_none_of_refresh_ok
    (h : (Strategy.refresh first last parallelism).run settings schemas handed shard schedule w =
      (.ok n, w')) {hour : Int} (hfirst : first ≤ hour) (hlast : hour ≤ last) :
    (ColumnStore.updatedIn handed shard hour).failure = none := by
  obtain ⟨-, tales, j, tail, course⟩ := exists_course_of_refresh h
  obtain ⟨whole, -⟩ := course.account.isOk_iff.1 ⟨n, rfl⟩
  have unbroken := List.filterMap_eq_nil_iff.1 whole
  rw [Strategy.streams, List.forall_mem_map] at unbroken
  exact unbroken hour (mem_hoursBetween.2 ⟨hfirst, hlast⟩)

variable [AtomicIndex ι]

/-- What is shown stays shown after a refresh, also if it fails. -/
lemma shows_of_refresh
    (h : (Strategy.refresh first last parallelism).run settings schemas handed shard schedule w =
      (result, w')) (hs : Shows w.index key r) : Shows w'.index key r :=
  shows_iff.2 <| inEachView_of_run h (fun _ _ _ _ hg => exists_update_holds hg _ _)
    (shows_iff.1 hs)

/-- A refresh that ends well shows each record that it was handed. -/
lemma shows_of_refresh_ok
    (h : (Strategy.refresh first last parallelism).run settings schemas handed shard schedule w =
      (.ok n, w')) (hr : r ∈ deliveredFor schemas handed shard first last key) :
    Shows w'.index key r := by
  obtain ⟨-, tales, j, tail, course⟩ := exists_course_of_refresh h
  obtain ⟨e, he, spans, -⟩ := (course.entry_of_refresh key).2 (List.ne_nil_of_mem hr)
  have held : ∃ e, (LawfulIndex.committed w'.index).get? key = some e ∧ e.Holds r :=
    ⟨e, he, spans.holds hr⟩
  refine ⟨?_, held, ?_⟩
  · rw [course.current?_of_ok]
    exact held
  · rw [course.contents_of_ok.2]
    exact held

end Calls

end Bootstrap

/-! ## Histories -/

/-- One thing that happens to a column store and an index that is refreshed from it. -/
inductive Occurrence
  /-- A batch is written. -/
  | stored (batch : Batch)
  /-- The index is refreshed for the hours of a shard from a first to a last one, while some batches
  are written. -/
  | refreshed (shard : Shard) (first last : Int) (meanwhile : List Batch) (endedWell : Bool)
deriving DecidableEq, Repr

namespace Occurrence

/-- The batches that are written. -/
def batches : Occurrence → List Batch
  | .stored b => [b]
  | .refreshed _ _ _ meanwhile _ => meanwhile

/-- The records that are written in a history, in order. -/
def filed (history : List Occurrence) : List Filed :=
  Batch.filedAll (history.flatMap batches)

end Occurrence

/-- A column store, and an index that is refreshed from it. -/
structure Site (ι : Type) where
  store : AnyStore
  index : ι

/-- What a site becomes when something happens.  A refresh may have any settings, resolver and
schedule, and any streams that the store hands out meanwhile. -/
inductive Site.Happens {ι : Type} [Index ι] [LawfulIndex ι] (schemas : Schema.Registry)
    (s : Site ι) : Occurrence → Site ι → Prop
  | stored {b : Batch} {store : AnyStore} : s.store.put b.shard b.items = (none, store) →
      Happens schemas s (.stored b) ⟨store, s.index⟩
  | refreshed {σ ρ : Type} [ColumnStore σ] [Identity.Resolver ρ] {handed : σ} {shard : Shard}
      {first last : Int} {meanwhile : List Batch} {store : AnyStore}
      {settings : Bootstrap.Settings} {parallelism : Option Nat}
      {schedule : List Bootstrap.Choice} {w w' : Bootstrap.World ρ ι}
      {result : Except Failure Nat} {endedWell : Bool} :
      s.store.Takes meanwhile store →
      (∀ hour, first ≤ hour → hour ≤ last →
        HandsOut meanwhile shard hour s.store (ColumnStore.updatedIn handed shard hour)) →
      Alike w.index s.index →
      (Bootstrap.Strategy.refresh first last parallelism).run settings schemas handed shard
        schedule w = (result, w') →
      endedWell = result.isOk →
      Happens schemas s (.refreshed shard first last meanwhile endedWell) ⟨store, w'.index⟩

/-- A refresh of the store itself, whose streams may be made to break off, is something that can
happen. -/
lemma Site.happens_of_run {ι ρ : Type} [Index ι] [LawfulIndex ι] [Identity.Resolver ρ]
    {schemas : Schema.Registry} {s : Site ι} {fault : Option Int → Option (Nat × Failure)}
    {shard : Shard} {first last : Int} {settings : Bootstrap.Settings} {parallelism : Option Nat}
    {schedule : List Bootstrap.Choice} {w w' : Bootstrap.World ρ ι}
    {result : Except Failure Nat} (hs : s.store.IsSound)
    (h : (Bootstrap.Strategy.refresh first last parallelism).run settings schemas
      (⟨s.store, fault⟩ : Interrupted AnyStore) shard schedule w = (result, w'))
    (hindex : w.index = s.index) :
    s.Happens schemas (.refreshed shard first last [] result.isOk) ⟨s.store, w'.index⟩ :=
  .refreshed (.nil _) (fun hour _ _ => handsOut_updatedIn hs fault shard hour)
    (hindex ▸ ⟨rfl, rfl, rfl⟩) h rfl

/-- The sites that a site becomes over a history. -/
inductive Site.Evolves {ι : Type} [Index ι] [LawfulIndex ι] (schemas : Schema.Registry) :
    Site ι → List Occurrence → Site ι → Prop
  | nil (s : Site ι) : Evolves schemas s [] s
  | cons {s s' s'' : Site ι} {o : Occurrence} {rest : List Occurrence} :
      s.Happens schemas o s' → Evolves schemas s' rest s'' → Evolves schemas s (o :: rest) s''

lemma Site.Evolves.takes {ι : Type} [Index ι] [LawfulIndex ι] {schemas : Schema.Registry}
    {s s' : Site ι} {history : List Occurrence} (h : s.Evolves schemas history s') :
    s.store.Takes (history.flatMap Occurrence.batches) s'.store := by
  induction h with
  | nil => exact .nil _
  | cons hfirst _ ih =>
    refine AnyStore.Takes.append ?_ ih
    cases hfirst with
    | stored hput => exact .cons hput (.nil _)
    | refreshed htakes => exact htakes

lemma Site.Evolves.exists_between {ι : Type} [Index ι] [LawfulIndex ι] {schemas : Schema.Registry}
    {s s' : Site ι} {history history' : List Occurrence}
    (h : s.Evolves schemas (history ++ history') s') :
    ∃ m, s.Evolves schemas history m ∧ m.Evolves schemas history' s' := by
  induction history generalizing s with
  | nil => exact ⟨s, .nil s, h⟩
  | cons o rest ih =>
    cases h with
    | cons hfirst hrest =>
      obtain ⟨m, hbefore, hafter⟩ := ih hrest
      exact ⟨m, .cons hfirst hbefore, hafter⟩

/-- What is shown stays shown, whatever happens later. -/
lemma Site.Evolves.shows {ι : Type} [Index ι] [AtomicIndex ι] {schemas : Schema.Registry}
    {s s' : Site ι} {history : List Occurrence} {key : Key} {r : Record}
    (h : s.Evolves schemas history s') (hs : Shows s.index key r) : Shows s'.index key r := by
  induction h with
  | nil => exact hs
  | cons hfirst _ ih =>
    refine ih ?_
    cases hfirst with
    | stored => exact hs
    | refreshed _ _ halike hrun =>
      have shown := halike.inEachView (shows_iff.1 hs)
      exact Bootstrap.shows_of_refresh hrun (shows_iff.2 shown)

/-- Whether the last record that is written for a key in a history is written before a refresh of
its shard that covers its hour and ends well. -/
def Filed.IsCovered (f : Filed) (history : List Occurrence) : Prop :=
  ∃ before first last meanwhile after,
    history = before ++ .refreshed f.shard first last meanwhile true :: after ∧
    f.IsLatest (Occurrence.filed before) ∧
    (∀ g ∈ Batch.filedAll meanwhile ++ Occurrence.filed after, g.slot ≠ f.slot) ∧
    first ≤ f.hour ∧ f.hour ≤ last

/-- **No update is missed.**  A store and an index of either kind, in any state, go through a history
of accepted writes and refreshes: of any hours, with any settings, resolvers and schedules, some of
which may fail, and with writes also during a refresh.  If the last record that was written for a
key was so before a refresh of its hour that ended well, and has a downsampled key, then readers
find an entry for that key whose window holds that of the record. -/
theorem reader_of_covered {ι : Type} [Index ι] [AtomicIndex ι] {schemas : Schema.Registry}
    {s s' : Site ι} {history : List Occurrence} (hsound : s.store.IsSound)
    (h : s.Evolves schemas history s') (f : Filed) (hcovered : f.IsCovered history) (key : Key)
    (hkey : schemas.downsampleKey f.record.key = some key) :
    ∃ e, (LawfulIndex.reader s'.index).get? key = some e ∧
      e.startTime ≤ f.record.startTime ∧ f.record.endTime ≤ e.endTime := by
  obtain ⟨before, first, last, meanwhile, after, rfl, hlatest, hlater, hfirst, hlast⟩ := hcovered
  obtain ⟨s₁, hbefore, hrest⟩ := h.exists_between
  obtain ⟨hmeanwhile, -⟩ := List.forall_mem_append.1 hlater
  -- the refresh begins with the record in the store
  have stored : f ∈ s₁.store.filed := hbefore.takes.mem_filed_of_isLatest hlatest
  have sound : s₁.store.IsSound := hbefore.takes.isSound hsound
  cases hrest with
  | cons hrefresh hafter =>
    cases hrefresh with
    | @refreshed σ ρ _ _ handed shard first last meanwhile store settings parallelism schedule w w'
      result endedWell htakes hhandsOut halike hrun hended =>
      obtain ⟨n, rfl⟩ : ∃ n, result = .ok n := by
        cases result with
        | ok n => exact ⟨n, rfl⟩
        | error e => cases hended
      have whole := Bootstrap.failure_eq_none_of_refresh_ok hrun hfirst hlast
      have handedOut := (hhandsOut f.hour hfirst hlast).mem_records sound stored hmeanwhile whole
      have delivered : f.record ∈
          Bootstrap.deliveredFor schemas handed f.shard first last key := by
        refine List.mem_filter.2 ⟨List.mem_flatMap.2 ⟨f.hour, ?_, handedOut⟩, decide_eq_true hkey⟩
        exact mem_hoursBetween.2 ⟨hfirst, hlast⟩
      exact (hafter.shows (Bootstrap.shows_of_refresh_ok hrun delivered)).reader

/-- A record of one of the series of a gauge. -/
def gaugeRecord (series : UInt8) (first last : Int) : Record :=
  ⟨Schema.encodeKey "gauge" [series], first, last⟩

/-- A series is written in one hour. -/
def firstBatch : Batch := ⟨⟨"metrics", 0⟩, [(gaugeRecord 1 10 20, 5)]⟩

/-- The same series is written in the next hour. -/
def secondBatch : Batch := ⟨⟨"metrics", 0⟩, [(gaugeRecord 1 5 12, 6)]⟩

/-- Another series is written in that hour. -/
def thirdBatch : Batch := ⟨⟨"metrics", 0⟩, [(gaugeRecord 2 0 9, 6)]⟩

/-- A refresh breaks off before the second batch; another one ends well, while the third batch is
written; and one more breaks off. -/
def movedHour : List Occurrence :=
  [.stored firstBatch, .refreshed ⟨"metrics", 0⟩ 5 6 [] false, .stored secondBatch,
    .refreshed ⟨"metrics", 0⟩ 6 6 [thirdBatch] true, .refreshed ⟨"metrics", 0⟩ 5 6 [] false]

/-- A refresh by two tasks. -/
def gaugeRefresh {σ : Type} [ColumnStore σ] (handed : σ) (first last : Int) (x : AnyIndex) :
    Except Failure Nat × Bootstrap.World Identity.Rule AnyIndex :=
  (Bootstrap.Strategy.refresh first last (some 2)).run ⟨1, 0⟩ ⟨[⟨"gauge", some "ds-gauge"⟩]⟩ handed
    ⟨"metrics", 0⟩ [] ⟨Identity.Rule.length, x, []⟩

/-- The stream of an hour breaks off before its first record. -/
def brokenAt (hour : Int) (asked : Option Int) : Option (Nat × Failure) :=
  if asked = some hour then some (0, .source "gone") else none

/-- In the end readers find the window of the second batch. -/
theorem reader_of_covered_movedHour :
    let store (rows : List StoredRow) : AnyStore := .paged ⟨⟨rows⟩, 1⟩
    let row (number : Nat) (r : Record) (hour : Int) : StoredRow :=
      ⟨number, ⟨⟨"metrics", 0⟩, r, hour⟩⟩
    let early := store [row 1 (gaugeRecord 1 10 20) 5]
    let late := store [row 2 (gaugeRecord 1 5 12) 6, row 3 (gaugeRecord 2 0 9) 6]
    let read : RecordLog := ⟨late.filed⟩
    let failed := gaugeRefresh (⟨early, brokenAt 6⟩ : Interrupted AnyStore) 5 6 (.durable {})
    let shown := gaugeRefresh read 6 6 failed.2.index
    let again := gaugeRefresh (⟨late, brokenAt 5⟩ : Interrupted AnyStore) 5 6 shown.2.index
    failed.1 = .error (.source "gone") ∧ shown.1 = .ok 2 ∧ again.1 = .error (.source "gone") ∧
      ∃ e, again.2.index.reader.get? [166, 238, 1] = some e ∧ e.startTime ≤ 5 ∧ 12 ≤ e.endTime := by
  intro store row early late read failed shown again
  let moved := store [row 2 (gaugeRecord 1 5 12) 6]
  have hfailed : failed.1 = .error (.source "gone") := by decide +kernel
  have hshown : shown.1 = .ok 2 := by decide +kernel
  have hagain : again.1 = .error (.source "gone") := by decide +kernel
  have empty : (store []).IsSound := PagedStore.isSound_empty
  have first : (store []).put firstBatch.shard firstBatch.items = (none, early) :=
    AnyStore.put_paged (by decide +kernel)
  have second : early.put secondBatch.shard secondBatch.items = (none, moved) :=
    AnyStore.put_paged (by decide +kernel)
  have third : moved.put thirdBatch.shard thirdBatch.items = (none, late) :=
    AnyStore.put_paged (by decide +kernel)
  have soundEarly : early.IsSound := empty.put first
  have soundLate : late.IsSound := (soundEarly.put second).put third
  -- the scan has read the first row when the batch is written, and comes upon the new one after it
  have scanned : ColumnStore.updatedIn read ⟨"metrics", 0⟩ 6 =
      { records := ((Scan.ofHour ⟨[row 2 (gaugeRecord 1 5 12) 6]⟩ ⟨"metrics", 0⟩ 6 1).run
          [.read, .write thirdBatch.shard thirdBatch.items, .read, .read]).emitted } := by
    decide +kernel
  have handsOut : HandsOut [thirdBatch] ⟨"metrics", 0⟩ 6 moved
      (ColumnStore.updatedIn read ⟨"metrics", 0⟩ 6) := by
    rw [scanned]
    exact .paged (by decide +kernel) (by decide +kernel)
  have fails : gaugeRefresh (⟨early, brokenAt 6⟩ : Interrupted AnyStore) 5 6 (.durable {}) =
      (.error (.source "gone"), failed.2) := Prod.ext hfailed rfl
  have succeeds : gaugeRefresh read 6 6 failed.2.index = (.ok 2, shown.2) := Prod.ext hshown rfl
  have failsAgain : gaugeRefresh (⟨late, brokenAt 5⟩ : Interrupted AnyStore) 5 6 shown.2.index =
      (.error (.source "gone"), again.2) := Prod.ext hagain rfl
  have evolves : Site.Evolves ⟨[⟨"gauge", some "ds-gauge"⟩]⟩ ⟨store [], .durable {}⟩ movedHour
      ⟨late, again.2.index⟩ :=
    .cons (.stored first) <|
      .cons (Site.happens_of_run (s := ⟨early, .durable {}⟩) soundEarly fails rfl) <|
      .cons (.stored second) <|
      .cons (.refreshed (.cons third (.nil _)) (fun hour h h' => le_antisymm h h' ▸ handsOut)
        ⟨rfl, rfl, rfl⟩ succeeds rfl) <|
      .cons (Site.happens_of_run (s := ⟨late, shown.2.index⟩) soundLate failsAgain rfl) (.nil _)
  have covered : (Filed.mk ⟨"metrics", 0⟩ (gaugeRecord 1 5 12) 6).IsCovered movedHour :=
    ⟨[_, _, _], 6, 6, [thirdBatch], [_], rfl, by decide +kernel, by decide +kernel, le_rfl, le_rfl⟩
  exact ⟨hfailed, hshown, hagain,
    reader_of_covered empty evolves _ covered [166, 238, 1] (by decide +kernel)⟩

end ShardIndex
