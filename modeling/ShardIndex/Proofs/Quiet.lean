import ShardIndex.Proofs.Atomic
import ShardIndex.Proofs.Sequence

/-!
# Calls apart from what they announce

An announcement makes no difference to what an index does.  A `QuietIndex` says so: with all that
was announced undone (`mute`) it answers every request as before.  All the indexes are quiet, also
those under observation, in which a call that is announced may use up a fault for its kind.

Hence a call, apart from its announcements, is what the call without them does (`run_mute`), and two
calls that write the same records in the same mode one after another do the same.  So a rebuilding
from the records still alive, if all of them are, is the rebuilding from every record
(`sequential_of_limit_one`).
-/

namespace ShardIndex

/-! ## The indexes -/

/-- An index in which announcements make no difference. -/
class QuietIndex (ι : Type) [Index ι] [LawfulIndex ι] where
  /-- The index with all that it has announced undone. -/
  mute : ι → ι
  mute_announce (x : ι) (e : Event) : mute (Index.announce x e) = mute x
  /-- It answers every request as before. -/
  perform_mute (x : ι) (r : Request) :
    Index.perform (mute x) r = ((Index.perform x r).1, mute (Index.perform x r).2)
  current?_mute (x : ι) : LawfulIndex.current? (mute x) = LawfulIndex.current? x
  committed_mute (x : ι) : LawfulIndex.committed (mute x) = LawfulIndex.committed x
  reader_mute (x : ι) : LawfulIndex.reader (mute x) = LawfulIndex.reader x

/-- In muted indexes that are the same nobody sees a difference. -/
lemma QuietIndex.contents_eq {ι : Type} [Index ι] [LawfulIndex ι] [QuietIndex ι] {x y : ι}
    (h : mute x = mute y) :
    LawfulIndex.current? x = LawfulIndex.current? y ∧
      LawfulIndex.committed x = LawfulIndex.committed y ∧
      LawfulIndex.reader x = LawfulIndex.reader y := by
  rw [← current?_mute x, ← committed_mute x, ← reader_mute x, h, current?_mute, committed_mute,
    reader_mute]
  exact ⟨rfl, rfl, rfl⟩

instance : QuietIndex VolatileIndex where
  mute x := { x with announcer := Announcer.standard }
  mute_announce _ _ := rfl
  perform_mute x r := by
    cases r with
    | write mode key e => rfl
    | commit => rfl
    | refreshReaders =>
      obtain ⟨writer, committed, reader, pending, commits, announcer⟩ := x
      cases pending <;> rfl
  current?_mute _ := rfl
  committed_mute _ := rfl
  reader_mute _ := rfl

instance : QuietIndex DurableIndex where
  mute x := { x with announcer := Announcer.standard }
  mute_announce _ _ := rfl
  perform_mute x r := by
    cases r with
    | write mode key e => rfl
    | commit => simp only [Index.perform, DurableIndex.commit_none]
    | refreshReaders => simp only [Index.perform, DurableIndex.refresh, DurableIndex.commit_none]
  current?_mute _ := rfl
  committed_mute _ := rfl
  reader_mute _ := rfl

namespace TroubledIndex

/-- The index with the one inside muted. -/
def mute (x : TroubledIndex) : TroubledIndex := { x with inner := QuietIndex.mute x.inner }

variable (x : TroubledIndex)

lemma ask_mute : x.mute.ask = (x.ask.1, x.ask.2.mute) := rfl

lemma write_mute (mode : WriteMode) (key : Key) (e : Entry) :
    x.mute.write mode key e = ((x.write mode key e).1, (x.write mode key e).2.mute) := by
  unfold write
  dsimp only
  by_cases hask : mode = .upsert ∧ x.inner.pending.get? key = none
  · rw [if_pos hask, if_pos (by exact hask), ask_mute]
    rcases x.ask with ⟨_ | cause, y⟩ <;> rfl
  · rw [if_neg hask, if_neg (by exact hask)]
    rfl

lemma commit_mute : x.mute.commit = (x.commit.1, x.commit.2.mute) := by
  unfold commit
  by_cases hempty : x.inner.pending.rows.isEmpty
  · rw [if_pos hempty, if_pos (by exact hempty)]
  · rw [if_neg hempty, if_neg (by exact hempty), ask_mute]
    rcases x.ask with ⟨_ | cause, y⟩
    · simp only [DurableIndex.commit_none]
      rfl
    · rfl

lemma refresh_mute : x.mute.refresh = (x.refresh.1, x.refresh.2.mute) := by
  unfold refresh
  rw [commit_mute]
  rcases x.commit with ⟨_ | cause, y⟩
  · dsimp only
    rw [ask_mute]
    rcases y.ask with ⟨_ | cause, z⟩ <;> rfl
  · rfl

end TroubledIndex

instance : QuietIndex TroubledIndex where
  mute := TroubledIndex.mute
  mute_announce x e := congrArg (TroubledIndex.mk · x.troubles) (QuietIndex.mute_announce x.inner e)
  perform_mute x r := by
    cases r with
    | write mode key e => exact x.write_mute mode key e
    | commit => exact x.commit_mute
    | refreshReaders => exact x.refresh_mute
  current?_mute _ := rfl
  committed_mute _ := rfl
  reader_mute _ := rfl

instance : QuietIndex AnyIndex where
  mute
    | .volatile x => .volatile (QuietIndex.mute x)
    | .durable x => .durable (QuietIndex.mute x)
  mute_announce x e := by
    cases x with
    | volatile x => exact congrArg AnyIndex.volatile (QuietIndex.mute_announce x e)
    | durable x => exact congrArg AnyIndex.durable (QuietIndex.mute_announce x e)
  perform_mute x r := by
    cases x with
    | volatile x => exact congrArg (Prod.map id AnyIndex.volatile) (QuietIndex.perform_mute x r)
    | durable x => exact congrArg (Prod.map id AnyIndex.durable) (QuietIndex.perform_mute x r)
  current?_mute x := by cases x <;> rfl
  committed_mute x := by cases x <;> rfl
  reader_mute x := by cases x <;> rfl

/-! ### Indexes under observation -/

/-- Whether a call is one that is announced. -/
def Call.IsRequest : Call → Bool
  | .request _ => true
  | .announcement _ => false

/-- Whether a fault waits for a request. -/
def Fault.IsForRequests (f : Fault) : Bool :=
  f.kind ≠ Stage.refreshing.name ∧ f.kind ≠ Stage.synced.name

lemma Fault.isForRequests_of_kind {f : Fault} {r : Request} (h : f.kind = Call.kind (.request r)) :
    f.IsForRequests := by
  rw [IsForRequests, h]
  rcases r with ⟨_ | _, key, e⟩ | _ | _ <;> rfl

lemma Fault.not_isForRequests_of_kind {f : Fault} {e : Event}
    (h : f.kind = Call.kind (.announcement e)) : f.IsForRequests = false := by
  rw [IsForRequests, h]
  rcases e with ⟨_ | _, time⟩ <;> rfl

namespace Monitored

variable {ι : Type}

/-- Without the announced calls and the faults for them, and with the index muted. -/
def muteBy (quiet : ι → ι) (m : Monitored ι) : Monitored ι where
  inner := quiet m.inner
  calls := m.calls.filter Call.IsRequest
  faults := m.faults.filter Fault.IsForRequests

/-- To look for a fault for an announcement is nothing to the rest. -/
lemma muteBy_intercept_announcement (quiet : ι → ι) (m : Monitored ι) (e : Event) :
    (m.intercept (.announcement e)).2.muteBy quiet = m.muteBy quiet := by
  have hcalls : (m.calls ++ [Call.announcement e]).filter Call.IsRequest =
      m.calls.filter Call.IsRequest := by
    rw [List.filter_append]
    exact List.append_nil _
  have hothers (f : Fault) (hkind : f.kind = Call.kind (.announcement e)) :
      (m.faults.filter fun g => g.kind ≠ f.kind).filter Fault.IsForRequests =
        m.faults.filter Fault.IsForRequests := by
    rw [List.filter_filter]
    refine List.filter_congr fun g _ => ?_
    by_cases hg : g.kind = f.kind
    · rw [Fault.not_isForRequests_of_kind (hg.trans hkind), Bool.false_and]
    · rw [decide_eq_true hg, Bool.and_true]
  unfold intercept
  dsimp only
  split
  · rw [muteBy, hcalls, muteBy]
  · rename_i f hf
    have hkind : f.kind = Call.kind (.announcement e) := by simpa using List.find?_some hf
    split
    · rw [muteBy, hcalls, hothers f hkind, muteBy]
    · have hnot : ¬ Fault.IsForRequests { f with countdown := f.countdown - 1 } = true :=
        Bool.eq_false_iff.1 (Fault.not_isForRequests_of_kind (e := e) hkind)
      rw [muteBy, hcalls, List.filter_cons_of_neg hnot, hothers f hkind, muteBy]

/-- Whether there is a fault for a request does not hang on the rest. -/
lemma intercept_muteBy (quiet : ι → ι) (m : Monitored ι) (r : Request) :
    (m.muteBy quiet).intercept (.request r) =
      ((m.intercept (.request r)).1, (m.intercept (.request r)).2.muteBy quiet) := by
  have hfind : (m.faults.filter Fault.IsForRequests).find?
      (fun f => f.kind = Call.kind (.request r)) =
        m.faults.find? fun f => f.kind = Call.kind (.request r) := by
    rw [List.find?_filter]
    congr 1
    funext f
    by_cases hf : f.kind = Call.kind (.request r)
    · rw [decide_eq_true hf, Fault.isForRequests_of_kind hf]
      rfl
    · simp [hf]
  have hcalls : m.calls.filter Call.IsRequest ++ [Call.request r] =
      (m.calls ++ [Call.request r]).filter Call.IsRequest := by
    rw [List.filter_append]
    rfl
  have hothers (f : Fault) :
      (m.faults.filter Fault.IsForRequests).filter (fun g => g.kind ≠ f.kind) =
        (m.faults.filter fun g => g.kind ≠ f.kind).filter Fault.IsForRequests := by
    rw [List.filter_filter, List.filter_filter]
    exact List.filter_congr fun g _ => Bool.and_comm _ _
  simp only [intercept, muteBy, hfind, hcalls, hothers]
  split
  · rfl
  · rename_i f hf
    have hkind : f.kind = Call.kind (.request r) := by simpa using List.find?_some hf
    split
    · rfl
    · have hfor : Fault.IsForRequests { f with countdown := f.countdown - 1 } = true :=
        Fault.isForRequests_of_kind (r := r) hkind
      simp only [List.filter_cons_of_pos hfor]

end Monitored

instance {ι : Type} [Index ι] [LawfulIndex ι] [QuietIndex ι] : QuietIndex (Monitored ι) where
  mute := Monitored.muteBy QuietIndex.mute
  mute_announce m e := by
    rw [← m.muteBy_intercept_announcement QuietIndex.mute e]
    simp only [Index.announce]
    split
    · rename_i cause y hy
      rw [hy]
    · rename_i y hy
      rw [hy, Monitored.muteBy, QuietIndex.mute_announce, Monitored.muteBy]
  perform_mute m r := by
    simp only [Index.perform, m.intercept_muteBy QuietIndex.mute r]
    rcases m.intercept (.request r) with ⟨_ | e, y⟩
    · simp only [Monitored.muteBy, QuietIndex.perform_mute]
    · rfl
  current?_mute m := QuietIndex.current?_mute m.inner
  committed_mute m := QuietIndex.committed_mute m.inner
  reader_mute m := QuietIndex.reader_mute m.inner

namespace Bootstrap

open Identity RecordStream

/-! ## Calls without their announcements -/

/-- Whether an action is something else than an announcement. -/
def Action.IsDeed : Action → Bool
  | .announced _ => false
  | _ => true

/-- What a journal says apart from announcements. -/
def deeds (j : List Action) : List Action := j.filter Action.IsDeed

lemma deeds_append (j j' : List Action) : deeds (j ++ j') = deeds j ++ deeds j' :=
  List.filter_append ..

section Mute

variable {ρ ι : Type} [Resolver ρ] [Index ι]

namespace World

/-- Commit, refresh the readers, and return a count. -/
def commitAndShow (count : Nat) (w : World ρ ι) : Except Failure Nat × World ρ ι :=
  match w.request .commit with
  | (some e, w) => (.error e, w)
  | (none, w) =>
    match w.request .refreshReaders with
    | (some e, w) => (.error e, w)
    | (none, w) => (.ok count, w)

/-- Write the records of a stream one after another, and commit. -/
def fill (mode : WriteMode) (s : RecordStream) (w : World ρ ι) :
    Except Failure Nat × World ρ ι :=
  match w.writeInOrder mode s.failure s.records 0 with
  | (.error e, w) => (.error e, w)
  | (.ok count, w) => w.commitAndShow count

variable [LawfulIndex ι] [QuietIndex ι]

/-- A world with all announcements undone. -/
def mute (w : World ρ ι) : World ρ ι :=
  ⟨w.resolver, QuietIndex.mute w.index, deeds w.journal⟩

variable (w : World ρ ι)

omit [Resolver ρ] in
lemma mute_announce (e : Event) : (w.announce e).mute = w.mute := by
  rw [announce, mute, QuietIndex.mute_announce, deeds_append]
  exact congrArg (World.mk w.resolver _) (List.append_nil _)

lemma consult_mute (r : Record) :
    w.mute.consult r = ((w.consult r).1, (w.consult r).2.mute) := by
  simp only [consult, mute, deeds_append]
  rfl

omit [Resolver ρ] in
lemma request_mute (r : Request) :
    w.mute.request r = ((w.request r).1, (w.request r).2.mute) := by
  simp only [request, mute, QuietIndex.perform_mute, deeds_append]
  rfl

lemma writeRecord_mute (mode : WriteMode) (r : Record) :
    w.mute.writeRecord mode r = ((w.writeRecord mode r).1, (w.writeRecord mode r).2.mute) := by
  rw [writeRecord, writeRecord, consult_mute]
  rcases w.consult r with ⟨_ | cause | _, v⟩
  · exact v.request_mute _
  · rfl
  · rfl

lemma writeInOrder_mute (mode : WriteMode) (failure : Option Failure) (records : List Record)
    (count : Nat) :
    w.mute.writeInOrder mode failure records count =
      ((w.writeInOrder mode failure records count).1,
        (w.writeInOrder mode failure records count).2.mute) := by
  induction records generalizing w count with
  | nil => cases failure <;> rfl
  | cons r rest ih =>
    rw [writeInOrder, writeInOrder, writeRecord_mute]
    rcases w.writeRecord mode r with ⟨_ | e, v⟩
    · exact ih v (count + 1)
    · rfl

end World

namespace Plan

variable [LawfulIndex ι] [QuietIndex ι]

omit [Resolver ρ] in
lemma conclude_mute (p : Plan) (count : Nat) (w : World ρ ι) :
    w.mute.commitAndShow count = ((p.conclude count w).1, (p.conclude count w).2.mute) := by
  rw [conclude, World.commitAndShow, World.request_mute]
  rcases w.request .commit with ⟨_ | e, v⟩
  · have hclosing : (p.closing.elim v v.announce).mute = v.mute := by
      cases p.closing with
      | none => rfl
      | some event => exact v.mute_announce event
    dsimp only
    rw [← hclosing, World.request_mute]
    rcases (p.closing.elim v v.announce).request .refreshReaders with ⟨_ | e, v'⟩ <;> rfl
  · rfl

/-- A call with one record in flight at most, apart from its announcements, writes the records one
after another and commits. -/
lemma run_mute {p : Plan} (h : p.writing.IsSequential) (schedule : List Choice)
    (w : World ρ ι) :
    w.mute.fill p.mode p.writing.inTurn = ((p.run schedule w).1, (p.run schedule w).2.mute) := by
  rw [run, p.write_of_isSequential h, World.fill, ← w.mute_announce p.opening,
    World.writeInOrder_mute]
  rcases (w.announce p.opening).writeInOrder p.mode p.writing.inTurn.failure
    p.writing.inTurn.records 0 with ⟨e | count, v⟩
  · rfl
  · exact p.conclude_mute count v

end Plan

lemma Strategy.run_mute [LawfulIndex ι] [QuietIndex ι] {σ : Type} [ColumnStore σ]
    {strategy : Strategy} {settings : Settings} {schemas : Schema.Registry} {store : σ}
    {shard : Shard} {p : Plan} (h : strategy.IsSequential settings)
    (hp : strategy.plan settings schemas store shard = .ok p) (schedule : List Choice)
    (w : World ρ ι) :
    w.mute.fill p.mode p.writing.inTurn =
      ((strategy.run settings schemas store shard schedule w).1,
        (strategy.run settings schemas store shard schedule w).2.mute) := by
  simp only [Strategy.run, hp]
  exact Plan.run_mute (h.writing hp) schedule w

end Mute

/-! ## The same records -/

lemma filterMap_eq_self {s : RecordStream} {f : Record → Option Record}
    (h : ∀ r ∈ s.records, f r = some r) : s.filterMap f = s := by
  rw [filterMap, List.filterMap_congr h, List.filterMap_some]

/-- **Sequential crews.**  If at most one record is asked for to be in flight, be it 0 or 1 and
be it by the call or by the settings, a crew makes of a stream under every schedule exactly what
resolving and writing its records one after another makes of it: the same calls of the resolver and
of the index with the same answers, the same count or the same failure.  Of the streams of some
hours it makes what comes of them in turn, up to the first that breaks off.  A rebuilding from the
records alive after a checkpoint, if that lies before the end of each, then does all that a
rebuilding from every record does, but for the announcements, and leaves the same behind. -/
theorem sequential_of_limit_one {ρ ι : Type} [Resolver ρ] [Index ι] {settings : Settings}
    {parallelism : Option Nat} (hone : parallelism.getD settings.parallelism ≤ 1) :
    (∀ (mode : WriteMode) (schedule : List Choice) (s : RecordStream) (w : World ρ ι),
      Crew.writeAll mode (settings.limit parallelism) schedule (.ofStream s) w =
        w.writeInOrder mode s.failure s.records 0) ∧
      (∀ (mode : WriteMode) (schedule : List Choice) (span : HourSpan)
        (updatedIn : Int → RecordStream) (w : World ρ ι),
        let s := inTurn (span.hours.map updatedIn)
        Crew.writeAll mode (settings.limit parallelism) schedule (.ofHours span updatedIn) w =
          w.writeInOrder mode s.failure s.records 0) ∧
      ∀ [LawfulIndex ι] [QuietIndex ι] {σ : Type} [ColumnStore σ] (schemas : Schema.Registry)
        (store : σ) (shard : Shard) (checkpoint : Option Int) (retention : Int)
        (schedule schedule' : List Choice) (w : World ρ ι),
        (∀ r ∈ (ColumnStore.scan store shard).records,
          effectiveCheckpoint checkpoint settings.now retention < r.endTime) →
        let alive := (Strategy.downsample checkpoint retention parallelism).run settings schemas
          store shard schedule w
        let every := Strategy.raw.run settings schemas store shard schedule' w
        alive.1 = every.1 ∧ deeds alive.2.journal = deeds every.2.journal ∧
          alive.2.resolver = every.2.resolver ∧
          QuietIndex.mute alive.2.index = QuietIndex.mute every.2.index ∧
          LawfulIndex.current? alive.2.index = LawfulIndex.current? every.2.index ∧
          LawfulIndex.committed alive.2.index = LawfulIndex.committed every.2.index ∧
          LawfulIndex.reader alive.2.index = LawfulIndex.reader every.2.index := by
  have hlimit : settings.limit parallelism = 1 := Nat.max_eq_right hone
  refine ⟨fun mode schedule s w => ?_, fun mode schedule span updatedIn w => ?_,
    fun schemas store shard checkpoint retention schedule schedule' w halive => ?_⟩
  · have hopened : (Feed.ofStream s).opened.length ≤ 1 := Nat.le_refl 1
    have hstream : (Feed.ofStream s).inTurn = s := inTurn_singleton s
    rw [hlimit, Crew.writeAll_one hopened, hstream]
  · have hopened : (Feed.ofHours span updatedIn).opened.length ≤ 1 := Nat.zero_le 1
    rw [hlimit, Crew.writeAll_one hopened, Feed.inTurn, Feed.streams_ofHours]
  · intro alive every
    have halone : (Strategy.downsample checkpoint retention parallelism).IsSequential settings :=
      hlimit
    have hraw : Strategy.raw.IsSequential settings := trivial
    -- every record passes the test, so both calls have the same stream
    have hstream : (Feed.ofStream ((ColumnStore.scan store shard).filterMap fun r =>
        if effectiveCheckpoint checkpoint settings.now retention < r.endTime then some r
        else none)).inTurn = ColumnStore.scan store shard :=
      (inTurn_singleton _).trans (filterMap_eq_self fun r hr => if_pos (halive r hr))
    have hsame : (alive.1, alive.2.mute) = (every.1, every.2.mute) :=
      calc (alive.1, alive.2.mute)
          = w.mute.fill .add _ := (Strategy.run_mute halone rfl schedule w).symm
        _ = w.mute.fill .add (ColumnStore.scan store shard) :=
            congrArg (World.fill .add · w.mute) hstream
        _ = (every.1, every.2.mute) := Strategy.run_mute hraw rfl schedule' w
    obtain ⟨hresult, hworld⟩ := Prod.mk.inj hsame
    obtain ⟨hresolver, hindex, hjournal⟩ := World.mk.inj hworld
    exact ⟨hresult, hjournal, hresolver, hindex, QuietIndex.contents_eq hindex⟩

/-- A rebuilding of a shard with two records on an index whose second write fails. -/
def halfRebuilding (strategy : Strategy) (schedule : List Choice) :
    Except Failure Nat × World Counter (Monitored VolatileIndex) :=
  strategy.run ⟨8, 1000⟩ .empty
    (⟨[⟨⟨"metrics", 0⟩, ⟨[170], 10, 20⟩, 0⟩, ⟨⟨"metrics", 0⟩, ⟨[171], 0, 30⟩, 0⟩]⟩ : RecordLog)
    ⟨"metrics", 0⟩ schedule
    ⟨Counter.fresh, Monitored.arm ⟨VolatileIndex.empty, [], []⟩ ⟨"add", 1, "disk full"⟩, []⟩

/-- With 0 records asked for to be in flight, and both alive, the failure comes at the same write
and the same entry is left behind. -/
theorem sequential_of_limit_one_halfRebuilding :
    let alive := halfRebuilding (.downsample none 990 (some 0)) [.advance 0, .pull 0, .join 0]
    let every := halfRebuilding .raw []
    every.1 = .error (.index "disk full") ∧ alive.1 = every.1 ∧
      (deeds every.2.journal).length = 4 ∧ deeds alive.2.journal = deeds every.2.journal ∧
      every.2.index.inner.writer.get? [170] = some ⟨0, 10, 20⟩ ∧
      alive.2.index.inner.writer.get? = every.2.index.inner.writer.get? := by
  intro alive every
  have hone : (some 0).getD (Settings.mk 8 1000).parallelism ≤ 1 := by decide
  obtain ⟨-, -, same⟩ := sequential_of_limit_one (ρ := Counter) (ι := Monitored VolatileIndex) hone
  obtain ⟨hresult, hdeeds, -, -, hcurrent, -⟩ := same .empty
    (⟨[⟨⟨"metrics", 0⟩, ⟨[170], 10, 20⟩, 0⟩, ⟨⟨"metrics", 0⟩, ⟨[171], 0, 30⟩, 0⟩]⟩ : RecordLog)
    ⟨"metrics", 0⟩ none 990 [.advance 0, .pull 0, .join 0] []
    ⟨Counter.fresh, Monitored.arm ⟨VolatileIndex.empty, [], []⟩ ⟨"add", 1, "disk full"⟩, []⟩
    (by decide)
  exact ⟨by decide +kernel, hresult, by decide +kernel, hdeeds, by decide +kernel, hcurrent⟩

end Bootstrap

end ShardIndex
