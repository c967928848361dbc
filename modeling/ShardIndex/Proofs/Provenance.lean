import ShardIndex.Proofs.Buckets
import ShardIndex.Proofs.Updates
import Mathlib.Data.List.TakeWhile
import Mathlib.Order.MinMax

/-!
# Where the entries of an index come from

A store is written, and calls of any strategies are made on an index, whatever comes of them.  The
index itself checks nothing: that its windows are in order rests on the stores, which refuse records
whose windows are reversed (`AnyStore.le_of_mem_accepts`), and on every way from there into an entry
carrying the two ends of a window along or taking the least and the greatest of several.

What holds of all rows that are written and is kept when entries are merged holds of all entries,
wherever they are in the index (`Everywhere`).  So each entry has its two ends from records that a
store has accepted (`everywhere_of_undergoes`).
-/

namespace ShardIndex

/-! ## What a store accepts -/

/-- If some checks end well together, each of them does. -/
lemma forM_eq_ok {α : Type} {f : α → Except Failure Unit} {l : List α} (h : l.forM f = .ok ()) :
    ∀ a ∈ l, f a = .ok () := by
  induction l with
  | nil => exact List.forall_mem_nil _
  | cons a rest ih =>
    have both : (f a >>= fun _ => rest.forM f) = .ok () := h
    cases ha : f a with
    | error e =>
      rw [ha] at both
      cases both
    | ok u =>
      rw [ha] at both
      exact List.forall_mem_cons.2 ⟨ha, ih both⟩

/-- A log takes the records of a batch up to the first whose window is reversed. -/
lemma RecordLog.entries_addAll_eq (l : RecordLog) (shard : Shard) (items : List (Record × Int)) :
    (l.addAll shard items).2.entries = l.entries ++
      (Batch.filed ⟨shard, items⟩).takeWhile fun f => f.record.startTime ≤ f.record.endTime := by
  induction items generalizing l with
  | nil => exact (List.append_nil _).symm
  | cons item rest ih =>
    obtain ⟨record, hour⟩ := item
    have first : Batch.filed ⟨shard, (record, hour) :: rest⟩ =
      ⟨shard, record, hour⟩ :: Batch.filed ⟨shard, rest⟩ := rfl
    rw [addAll, first]
    cases hvalid : record.validate with
    | ok u =>
      have hwindow := Record.validate_eq_ok_iff.1 hvalid
      have added : l.add shard record hour = .ok ⟨l.entries ++ [⟨shard, record, hour⟩]⟩ := by
        rw [add, hvalid]
        rfl
      rw [added, List.takeWhile_cons_of_pos (by simpa using hwindow)]
      exact (ih _).trans (List.append_assoc _ _ _)
    | error e =>
      have hwindow : ¬ record.startTime ≤ record.endTime := fun hle => by
        rw [Record.validate_eq_ok_iff.2 hle] at hvalid
        cases hvalid
      have refused : l.add shard record hour = .error e := by
        rw [add, hvalid]
        rfl
      rw [refused, List.takeWhile_cons_of_neg (by simpa using hwindow), List.append_nil]

namespace AnyStore

/-- What a store accepts of a batch: a log takes its records one by one up to the first that it
refuses, and a paged store takes all of them or none. -/
def accepts (s : AnyStore) (b : Batch) : List Filed :=
  match s with
  | .log _ => b.filed.takeWhile fun f => f.record.startTime ≤ f.record.endTime
  | .paged _ => if (s.put b.shard b.items).1 = none then b.filed else []

variable {s s' : AnyStore} {b : Batch} {o : Option Failure} {history : List Filed}

/-- The windows of what is accepted are in order. -/
lemma le_of_mem_accepts {f : Filed} (hf : f ∈ s.accepts b) :
    f.record.startTime ≤ f.record.endTime := by
  cases s with
  | log l =>
    have kept := List.mem_takeWhile_imp hf
    exact of_decide_eq_true kept
  | paged r =>
    rw [accepts] at hf
    split at hf
    · rename_i hnone
      obtain ⟨t, ht, -⟩ := PagedStore.put_eq_ok (Prod.ext hnone rfl)
      obtain ⟨item, hitem, rfl⟩ := List.mem_map.1 hf
      have checked : b.items.forM (fun item => item.1.validate) = .ok () := by
        simp only [PagedStore.write, bind, Except.bind] at ht
        split at ht
        · cases ht
        · assumption
      exact Record.validate_eq_ok_iff.1 (forM_eq_ok checked item hitem)
    · cases hf

/-- A store that refuses a batch, or a part of it, keeps what it has accepted. -/
lemma Keeps.of_put (h : s.Keeps history) (hput : s.put b.shard b.items = (o, s')) :
    s'.Keeps (history ++ s.accepts b) := by
  cases s with
  | log l =>
    obtain ⟨-, rfl⟩ := Prod.mk.inj hput
    refine ⟨trivial, ?_⟩
    show (l.addAll b.shard b.items).2.entries = history ++ _
    rw [RecordLog.entries_addAll_eq]
    exact congrArg (· ++ _) h.filed_eq
  | paged r =>
    have outcome : ((AnyStore.paged r).put b.shard b.items).1 = o := congrArg Prod.fst hput
    cases o with
    | none =>
      rw [accepts, if_pos outcome]
      exact h.put hput
    | some e =>
      have unchanged : AnyStore.paged r = s' := by
        rw [AnyStore.put] at hput
        split at hput
        · exact (Prod.mk.inj hput).2
        · cases (Prod.mk.inj hput).1
      rw [accepts, outcome, if_neg (Option.some_ne_none e), List.append_nil, ← unchanged]
      exact h

/-- What a store holds was accepted. -/
lemma Keeps.filed_subset (h : s.Keeps history) : s.filed ⊆ history := by
  rw [h.filed_eq]
  cases s with
  | log l => exact List.Subset.refl _
  | paged r => exact (Filed.latest_sublist history).subset

end AnyStore

/-! ## What holds of all entries -/

/-- Whether something holds of all entries of an index, be they there for the next write, committed
or seen by readers. -/
def Everywhere {ι : Type} [Index ι] [LawfulIndex ι] (P : Key → Entry → Prop) (x : ι) : Prop :=
  InEachView (fun g => ∀ key e, g key = some e → P key e) x

lemma Everywhere.mono {ι : Type} [Index ι] [LawfulIndex ι] {P Q : Key → Entry → Prop} {x : ι}
    (h : Everywhere P x) (hPQ : ∀ key e, P key e → Q key e) : Everywhere Q x :=
  InEachView.mono h fun _ hg key e he => hPQ key e (hg key e he)

/-- What holds of all entries and of a row holds of all entries still when the row is written, if it
is kept when entries are merged. -/
lemma forall_update {P : Key → Entry → Prop} {g : Key → Option Entry} {key : Key} {e : Entry}
    (hmerge : ∀ key e e', P key e → P key e' → P key (e.merge e')) (hrow : P key e)
    (hg : ∀ key e, g key = some e → P key e) (mode : WriteMode) :
    ∀ k e', mode.update g key e k = some e' → P k e' := by
  intro k e' he'
  rw [WriteMode.update] at he'
  by_cases hk : k = key
  · rw [if_pos hk] at he'
    rw [← Option.some.inj he', hk]
    cases mode with
    | add => exact hrow
    | upsert =>
      cases hbefore : g key with
      | none => exact hrow
      | some before => exact hmerge key before e (hg key before hbefore) hrow
  · rw [if_neg hk] at he'
    exact hg k e' he'

namespace Bootstrap

open Identity RecordStream

/-- The key under which a strategy writes the records of a key, if it writes them. -/
def Strategy.keyFor (schemas : Schema.Registry) : Strategy → Key → Option Key
  | .raw, key => some key
  | .downsample _ _ _, key => some key
  | .refresh _ _ _, key => schemas.downsampleKey key

/-- What a strategy is to write comes from what is filed for its shard, with the same windows. -/
lemma exists_filed_of_mem_streams {strategy : Strategy} {settings : Settings}
    {schemas : Schema.Registry} {s : AnyStore} {fault : Option Int → Option (Nat × Failure)}
    {shard : Shard} (hs : s.IsSound) {r : Record}
    (hr : r ∈ recordsOf (strategy.streams settings schemas (⟨s, fault⟩ : Interrupted AnyStore)
      shard)) :
    ∃ f ∈ s.filed, f.shard = shard ∧ strategy.keyFor schemas f.record.key = some r.key ∧
      r = f.record.withKey r.key := by
  obtain ⟨stream, hstream, hr⟩ := List.mem_flatMap.1 hr
  have scanned : ∀ x ∈ (ColumnStore.scan (⟨s, fault⟩ : Interrupted AnyStore) shard).records,
      ∃ f ∈ s.filed, f.shard = shard ∧ f.record = x := by
    intro x hx
    have := records_elim_breakAfter_subset _ _ hx
    rw [AnyStore.scan_eq hs] at this
    obtain ⟨f, hf, rfl⟩ := List.mem_map.1 this
    exact ⟨f, List.mem_of_mem_filter hf, of_decide_eq_true (List.mem_filter.1 hf).2, rfl⟩
  cases strategy with
  | raw =>
    obtain rfl := List.mem_singleton.1 hstream
    obtain ⟨f, hf, hshard, rfl⟩ := scanned r hr
    exact ⟨f, hf, hshard, rfl, rfl⟩
  | downsample checkpoint retention parallelism =>
    obtain rfl := List.mem_singleton.1 hstream
    obtain ⟨x, hx, hkept⟩ := List.mem_filterMap.1 hr
    obtain ⟨f, hf, hshard, rfl⟩ := scanned x hx
    split at hkept
    · obtain rfl := Option.some.inj hkept
      exact ⟨f, hf, hshard, rfl, rfl⟩
    · cases hkept
  | refresh first last parallelism =>
    obtain ⟨hour, -, rfl⟩ := List.mem_map.1 hstream
    obtain ⟨x, hx, hkept⟩ := List.mem_filterMap.1 hr
    have found := records_elim_breakAfter_subset _ _ hx
    rw [AnyStore.updatedIn_eq hs] at found
    obtain ⟨f, hf, rfl⟩ := List.mem_map.1 found
    obtain ⟨key, hkey, rfl⟩ := Option.map_eq_some_iff.1 hkept
    obtain ⟨hf, hshard, -⟩ := mem_filter_hour.1 hf
    exact ⟨f, hf, hshard, hkey, rfl⟩

end Bootstrap

/-! ## Histories -/

/-- One thing that happens to a store and an index that is built and refreshed from it. -/
inductive Happening
  /-- A batch is written, of which some records are accepted. -/
  | stored (accepted : List Filed)
  /-- A call is made for a shard. -/
  | called (strategy : Bootstrap.Strategy) (schemas : Schema.Registry) (shard : Shard)

/-- What was accepted in a history. -/
def Happening.accepted (history : List Happening) : List Filed :=
  history.flatMap fun
    | .stored accepted => accepted
    | .called _ _ _ => []

/-- What a site becomes over a history.  A batch may be refused or accepted; a call may have any
settings, resolver and schedule, its streams may break off and it may end in any way. -/
inductive Site.Undergoes {ι : Type} [Index ι] [LawfulIndex ι] (s₀ : Site ι) :
    List Happening → Site ι → Prop
  | nil : Undergoes s₀ [] s₀
  | stored {history : List Happening} {s : Site ι} {b : Batch} {o : Option Failure}
      {store : AnyStore} : s₀.Undergoes history s → s.store.put b.shard b.items = (o, store) →
      Undergoes s₀ (history ++ [.stored (s.store.accepts b)]) ⟨store, s.index⟩
  | called {history : List Happening} {s : Site ι} {ρ : Type} [Identity.Resolver ρ]
      {strategy : Bootstrap.Strategy} {settings : Bootstrap.Settings} {schemas : Schema.Registry}
      {fault : Option Int → Option (Nat × Failure)} {shard : Shard}
      {schedule : List Bootstrap.Choice} {w w' : Bootstrap.World ρ ι}
      {result : Except Failure Nat} : s₀.Undergoes history s → Alike w.index s.index →
      strategy.run settings schemas (⟨s.store, fault⟩ : Interrupted AnyStore) shard schedule w =
        (result, w') →
      Undergoes s₀ (history ++ [.called strategy schemas shard]) ⟨s.store, w'.index⟩

/-- Whether a record was accepted in a history, and a call was made for its shard that writes such
records under a key: under their own, or under the one to which they are downsampled. -/
structure Filed.IsSource (f : Filed) (history : List Happening) (key : Key) : Prop where
  accepted : f ∈ Happening.accepted history
  written : ∃ strategy schemas, .called strategy schemas f.shard ∈ history ∧
    strategy.keyFor schemas f.record.key = some key

/-- Whether an entry has its window in order, and each end of it from a record. -/
structure Entry.IsTraced (history : List Happening) (key : Key) (e : Entry) : Prop where
  ordered : e.startTime ≤ e.endTime
  start : ∃ f : Filed, f.IsSource history key ∧ f.record.startTime = e.startTime
  stop : ∃ f : Filed, f.IsSource history key ∧ f.record.endTime = e.endTime

section Histories

variable {history : List Happening} {key : Key} {e e' : Entry} {f : Filed}

@[simp] lemma Happening.accepted_append (history more : List Happening) :
    accepted (history ++ more) = accepted history ++ accepted more :=
  List.flatMap_append

lemma Filed.IsSource.append (h : f.IsSource history key) (more : List Happening) :
    f.IsSource (history ++ more) key where
  accepted := by
    rw [Happening.accepted_append]
    exact List.mem_append_left _ h.accepted
  written := by
    obtain ⟨strategy, schemas, hmem, hkey⟩ := h.written
    exact ⟨strategy, schemas, List.mem_append_left _ hmem, hkey⟩

namespace Entry.IsTraced

lemma append (h : e.IsTraced history key) (more : List Happening) :
    e.IsTraced (history ++ more) key where
  ordered := h.ordered
  start := by
    obtain ⟨f, hf, hstart⟩ := h.start
    exact ⟨f, hf.append more, hstart⟩
  stop := by
    obtain ⟨f, hf, hstop⟩ := h.stop
    exact ⟨f, hf.append more, hstop⟩

/-- The window that holds two windows has each end from one of them. -/
lemma merge (h : e.IsTraced history key) (h' : e'.IsTraced history key) :
    (e.merge e').IsTraced history key where
  ordered := (min_le_left _ _).trans (h.ordered.trans (le_max_left _ _))
  start := by
    rcases min_choice e.startTime e'.startTime with hmin | hmin
    · obtain ⟨f, hf, hstart⟩ := h.start
      exact ⟨f, hf, hstart.trans hmin.symm⟩
    · obtain ⟨f, hf, hstart⟩ := h'.start
      exact ⟨f, hf, hstart.trans hmin.symm⟩
  stop := by
    rcases max_choice e.endTime e'.endTime with hmax | hmax
    · obtain ⟨f, hf, hstop⟩ := h.stop
      exact ⟨f, hf, hstop.trans hmax.symm⟩
    · obtain ⟨f, hf, hstop⟩ := h'.stop
      exact ⟨f, hf, hstop.trans hmax.symm⟩

end Entry.IsTraced

variable {ι : Type} [Index ι] [AtomicIndex ι] {s₀ s s' : Site ι}

/-- What a history says about the site that has come of it: the store keeps what was accepted, all
of it is in order, and the entries of the index come from it. -/
structure Site.Accounts (s : Site ι) (history : List Happening) : Prop where
  keeps : s.store.Keeps (Happening.accepted history)
  ordered : ∀ f ∈ Happening.accepted history, f.record.startTime ≤ f.record.endTime
  traced : Everywhere (Entry.IsTraced history) s.index

namespace Site.Accounts

lemma stored {b : Batch} {o : Option Failure} {store : AnyStore} (h : s.Accounts history)
    (hput : s.store.put b.shard b.items = (o, store)) :
    (Site.mk store s.index).Accounts (history ++ [.stored (s.store.accepts b)]) := by
  have accepted : Happening.accepted (history ++ [.stored (s.store.accepts b)]) =
      Happening.accepted history ++ s.store.accepts b := by
    rw [Happening.accepted_append]
    exact congrArg _ (List.append_nil _)
  refine ⟨?_, ?_, h.traced.mono fun key e he => he.append _⟩
  · rw [accepted]
    exact h.keeps.of_put hput
  · rw [accepted]
    intro f hf
    rcases List.mem_append.1 hf with hf | hf
    · exact h.ordered f hf
    · exact AnyStore.le_of_mem_accepts hf

lemma called {ρ : Type} [Identity.Resolver ρ] {strategy : Bootstrap.Strategy}
    {settings : Bootstrap.Settings} {schemas : Schema.Registry}
    {fault : Option Int → Option (Nat × Failure)} {shard : Shard}
    {schedule : List Bootstrap.Choice} {w w' : Bootstrap.World ρ ι} {result : Except Failure Nat}
    (h : s.Accounts history) (halike : Alike w.index s.index)
    (hrun : strategy.run settings schemas (⟨s.store, fault⟩ : Interrupted AnyStore) shard schedule
      w = (result, w')) :
    (Site.mk s.store w'.index).Accounts (history ++ [.called strategy schemas shard]) := by
  have accepted : Happening.accepted (history ++ [.called strategy schemas shard]) =
      Happening.accepted history := by
    rw [Happening.accepted_append]
    exact List.append_nil _
  refine ⟨accepted ▸ h.keeps, accepted ▸ h.ordered, ?_⟩
  have before : Everywhere (Entry.IsTraced (history ++ [.called strategy schemas shard])) w.index :=
    Everywhere.mono (halike.inEachView h.traced) fun key e he => he.append _
  refine Bootstrap.inEachView_of_run hrun (fun r hr n g hg => ?_) before
  refine forall_update (fun key e e' => Entry.IsTraced.merge) ?_ hg _
  obtain ⟨f, hf, rfl, hkey, hrecord⟩ := Bootstrap.exists_filed_of_mem_streams h.keeps.sound hr
  have hf := h.keeps.filed_subset hf
  have source : f.IsSource (history ++ [.called strategy schemas f.shard]) r.key :=
    ⟨accepted ▸ hf, strategy, schemas, List.mem_append_right _ (List.mem_singleton_self _), hkey⟩
  rw [hrecord]
  exact ⟨h.ordered f hf, ⟨f, source, rfl⟩, ⟨f, source, rfl⟩⟩

end Site.Accounts

/-- **Where the entries of an index come from.**  A site begins with an empty store of either kind
and an index without entries.  Batches are written, and accepted or refused as a whole or in part;
calls of any strategies are made for any shards, under any settings and schedules and with any
resolvers, whose streams may break off and which may fail anywhere.  Then every entry of the index,
be it there for the next write, committed or seen by readers, has a window that does not end before
it begins.  Each end of the window is that of a record which was accepted and for whose shard a call
was made that writes it under the key of the entry: a refresh under the key to which its schemas
downsample the key of the record, any other call under that key itself. -/
theorem everywhere_of_undergoes (hstore : s₀.store.filed = [])
    (hindex : Everywhere (fun _ _ => False) s₀.index) (h : s₀.Undergoes history s) :
    Everywhere (Entry.IsTraced history) s.index := by
  have accounts : s.Accounts history := by
    induction h with
    | nil =>
      exact ⟨AnyStore.keeps_nil hstore, List.forall_mem_nil _, hindex.mono fun _ _ => False.elim⟩
    | stored _ hput ih => exact ih.stored hput
    | called _ halike hrun ih => exact ih.called halike hrun
  exact accounts.traced

end Histories

/-- A batch of which a log accepts the first record only. -/
def halfBatch : Batch :=
  ⟨⟨"metrics", 0⟩, [(gaugeRecord 1 10 20, 5), (gaugeRecord 2 9 3, 5), (gaugeRecord 3 0 1, 5)]⟩

/-- A log refuses a record whose window is reversed and all that come after it; the entry that a
refresh makes of the first one has the window of this. -/
theorem everywhere_of_undergoes_halfBatch :
    let log : AnyStore := .log ⟨[⟨⟨"metrics", 0⟩, gaugeRecord 1 10 20, 5⟩]⟩
    let refreshed := gaugeRefresh (⟨log, fun _ => none⟩ : Interrupted AnyStore) 5 6 (.volatile {})
    let history : List Happening := [.stored [⟨⟨"metrics", 0⟩, gaugeRecord 1 10 20, 5⟩],
      .called (.refresh 5 6 (some 2)) ⟨[⟨"gauge", some "ds-gauge"⟩]⟩ ⟨"metrics", 0⟩]
    refreshed.1 = .ok 1 ∧
      ∃ e, refreshed.2.index.reader.get? [166, 238, 1] = some e ∧
        e.IsTraced history [166, 238, 1] := by
  intro log refreshed history
  have result : refreshed.1 = .ok 1 := by decide +kernel
  have shown : refreshed.2.index.reader.get? [166, 238, 1] = some ⟨3, 10, 20⟩ := by decide +kernel
  have put : (AnyStore.log {}).put halfBatch.shard halfBatch.items =
      (some (.windowReversed 9 3), log) := rfl
  have run : (Bootstrap.Strategy.refresh 5 6 (some 2)).run ⟨1, 0⟩ ⟨[⟨"gauge", some "ds-gauge"⟩]⟩
      (⟨log, fun _ => none⟩ : Interrupted AnyStore) ⟨"metrics", 0⟩ []
      (⟨Identity.Rule.length, .volatile {}, []⟩ : Bootstrap.World Identity.Rule AnyIndex) =
        (.ok 1, refreshed.2) := Prod.ext result rfl
  let site : Site AnyIndex := ⟨.log {}, .volatile {}⟩
  have start : site.Undergoes [] site := .nil
  have undergoes : site.Undergoes history ⟨log, refreshed.2.index⟩ :=
    .called (.stored (b := halfBatch) start put) ⟨rfl, rfl, rfl⟩ run
  have bare : Everywhere (fun _ _ => False) site.index := by
    constructor <;> (intro key e he; cases he)
  exact ⟨result, _, shown, (everywhere_of_undergoes rfl bare undergoes).reader _ _ shown⟩

end ShardIndex
