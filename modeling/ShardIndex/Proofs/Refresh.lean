import ShardIndex.Proofs.Assignment
import ShardIndex.Proofs.Contents
import Mathlib.Data.List.Induction
import Mathlib.Order.Bounds.Basic

/-!
# What a refresh leaves

A refresh merges the records of some hours into the index, each under the key that it is
downsampled to.  Merging is taking the least window that holds both, so the order in which the
records come does not matter: a key has in the end the least window that holds its former one and
those of all its records (`Entry.Spans`), and its id is one that was given for the key in the
call.  The main result is `contents_of_refresh`.
-/

namespace ShardIndex

/-! ## Windows -/

/-- The window of an entry is the least one that holds that of an earlier entry, if there was one,
and those of some records. -/
structure Entry.Spans (e : Entry) (before : Option Entry) (records : List Record) : Prop where
  /-- It begins with the first of them. -/
  start : IsLeast {t | (∃ b ∈ before, b.startTime = t) ∨ ∃ r ∈ records, r.startTime = t} e.startTime
  /-- It ends with the last of them. -/
  stop : IsGreatest {t | (∃ b ∈ before, b.endTime = t) ∨ ∃ r ∈ records, r.endTime = t} e.endTime

namespace Entry.Spans

variable {e later : Entry} {before : Option Entry} {r : Record} {records records' : List Record}

lemma self (e : Entry) : e.Spans (some e) [] := by
  constructor <;> simp

lemma single (hstart : r.startTime = e.startTime) (hend : r.endTime = e.endTime) :
    e.Spans none [r] := by
  constructor <;> simp [hstart, hend]

/-- What an entry spans does not depend on the order of the records, nor on their keys. -/
lemma congr (h : e.Spans before records)
    (hstart : ∀ t, (∃ r ∈ records, r.startTime = t) ↔ ∃ r ∈ records', r.startTime = t)
    (hend : ∀ t, (∃ r ∈ records, r.endTime = t) ↔ ∃ r ∈ records', r.endTime = t) :
    e.Spans before records' := by
  obtain ⟨least, greatest⟩ := h
  simp only [hstart] at least
  simp only [hend] at greatest
  exact ⟨least, greatest⟩

/-- A merged entry spans one record more. -/
lemma merge (h : e.Spans before records) (hstart : r.startTime = later.startTime)
    (hend : r.endTime = later.endTime) : (e.merge later).Spans before (records ++ [r]) := by
  have starts : {t | (∃ b ∈ before, b.startTime = t) ∨ ∃ x ∈ records ++ [r], x.startTime = t} =
      insert later.startTime
        {t | (∃ b ∈ before, b.startTime = t) ∨ ∃ x ∈ records, x.startTime = t} := by
    ext t
    simp only [List.mem_append, List.mem_singleton, or_and_right, exists_or, exists_eq_left,
      Set.mem_ofPred_eq, Set.mem_insert_iff, hstart]
    rw [eq_comm (a := t), ← or_assoc, or_comm]
  have ends : {t | (∃ b ∈ before, b.endTime = t) ∨ ∃ x ∈ records ++ [r], x.endTime = t} =
      insert later.endTime
        {t | (∃ b ∈ before, b.endTime = t) ∨ ∃ x ∈ records, x.endTime = t} := by
    ext t
    simp only [List.mem_append, List.mem_singleton, or_and_right, exists_or, exists_eq_left,
      Set.mem_ofPred_eq, Set.mem_insert_iff, hend]
    rw [eq_comm (a := t), ← or_assoc, or_comm]
  constructor
  · rw [starts]
    show IsLeast _ (min e.startTime later.startTime)
    rw [min_comm]
    exact h.start.insert _
  · rw [ends]
    show IsGreatest _ (max e.endTime later.endTime)
    rw [max_comm]
    exact h.stop.insert _

end Entry.Spans

namespace Bootstrap

open Identity

/-- After upserts a key has an entry with the least window that holds the one before and those of
the rows, or it still has none and there were no rows for it. -/
lemma spans_entryAfter (key : Key) (before : Option Entry) (rows : List (Key × Entry)) :
    match entryAfter .upsert key before rows with
    | some e => e.Spans before ((rows.map Record.ofRow).filter fun r => r.key = key)
    | none => before = none ∧ (rows.map Record.ofRow).filter (fun r => r.key = key) = [] := by
  -- the first row is merged first, so a longer list has one row more at its end
  induction rows using List.reverseRecOn with
  | nil =>
    cases before with
    | none => exact ⟨rfl, rfl⟩
    | some e => exact Entry.Spans.self e
  | append_singleton rows row ih =>
    rw [entryAfter_append, List.map_append, List.filter_append]
    show match (if row.1 = key then _ else _ : Option Entry) with | some e => _ | none => _
    by_cases hrow : row.1 = key
    · have hfilter : [Record.ofRow row].filter (fun r => r.key = key) = [Record.ofRow row] := by
        simp [Record.ofRow, hrow]
      rw [if_pos hrow, List.map_singleton, hfilter]
      cases hafter : entryAfter .upsert key before rows with
      | some e =>
        rw [hafter] at ih
        exact Entry.Spans.merge ih rfl rfl
      | none =>
        rw [hafter] at ih
        obtain ⟨rfl, hnone⟩ := ih
        rw [hnone]
        exact Entry.Spans.single rfl rfl
    · have hfilter : [Record.ofRow row].filter (fun r => r.key = key) = [] := by
        simp [Record.ofRow, hrow]
      rw [if_neg hrow, List.map_singleton, hfilter, List.append_nil]
      exact ih

/-! ## What is delivered -/

section Delivered

variable {σ : Type} [ColumnStore σ] (schemas : Schema.Registry) (store : σ) (shard : Shard)
  (first last : Int)

/-- The records that a store delivers for the hours from a first to a last one. -/
def delivered : List Record :=
  (hoursBetween first last).flatMap fun hour => (ColumnStore.updatedIn store shard hour).records

/-- Those of them that are downsampled to a key. -/
def deliveredFor (key : Key) : List Record :=
  (delivered store shard first last).filter fun r => schemas.downsampleKey r.key = some key

lemma recordsOf_streams (settings : Settings) (parallelism : Option Nat) :
    RecordStream.recordsOf
        ((Strategy.refresh first last parallelism).streams settings schemas store shard) =
      (delivered store shard first last).filterMap schemas.downsampleRecord := by
  rw [Strategy.streams, RecordStream.recordsOf, List.flatMap_map, delivered,
    List.filterMap_flatMap]
  rfl

variable {schemas store shard first last}

/-- A record is written under a key if it comes from one that is downsampled to the key. -/
lemma mem_filterMap_iff {r : Record} :
    r ∈ (delivered store shard first last).filterMap schemas.downsampleRecord ↔
      ∃ raw ∈ deliveredFor schemas store shard first last r.key, raw.withKey r.key = r := by
  rw [List.mem_filterMap]
  constructor
  · rintro ⟨raw, hraw, hr⟩
    obtain ⟨key, hkey, rfl⟩ := Option.map_eq_some_iff.1 hr
    exact ⟨raw, List.mem_filter.2 ⟨hraw, decide_eq_true hkey⟩, rfl⟩
  · rintro ⟨raw, hraw, hr⟩
    obtain ⟨hmem, hkey⟩ := List.mem_filter.1 hraw
    refine ⟨raw, hmem, ?_⟩
    rw [Schema.Registry.downsampleRecord, of_decide_eq_true hkey]
    exact congrArg some hr

lemma exists_mem_filterMap_iff {key : Key} :
    (∃ r ∈ (delivered store shard first last).filterMap schemas.downsampleRecord, r.key = key) ↔
      deliveredFor schemas store shard first last key ≠ [] := by
  constructor
  · rintro ⟨r, hr, rfl⟩
    obtain ⟨raw, hraw, -⟩ := mem_filterMap_iff.1 hr
    exact List.ne_nil_of_mem hraw
  · intro hne
    obtain ⟨raw, hraw⟩ := List.exists_mem_of_ne_nil _ hne
    exact ⟨raw.withKey key, mem_filterMap_iff.2 ⟨raw, hraw, rfl⟩, rfl⟩

/-- The records that are written under a key have the windows of those it is made from. -/
lemma spans_deliveredFor {key : Key} {e : Entry} {before : Option Entry} {records : List Record}
    (hrecords : records.Perm
      ((delivered store shard first last).filterMap schemas.downsampleRecord))
    (h : e.Spans before (records.filter fun r => r.key = key)) :
    e.Spans before (deliveredFor schemas store shard first last key) := by
  have written (f : Record → Int) (hf : ∀ r k, f (r.withKey k) = f r) (t : Int) :
      (∃ r ∈ records.filter (fun r => r.key = key), f r = t) ↔
        ∃ raw ∈ deliveredFor schemas store shard first last key, f raw = t := by
    constructor
    · rintro ⟨r, hr, rfl⟩
      obtain ⟨hr, hkey⟩ := List.mem_filter.1 hr
      obtain ⟨raw, hraw, hr⟩ := mem_filterMap_iff.1 (hrecords.mem_iff.1 hr)
      rw [of_decide_eq_true hkey] at hraw
      exact ⟨raw, hraw, by rw [← hr, hf]⟩
    · rintro ⟨raw, hraw, rfl⟩
      have hmem : raw.withKey key ∈ records :=
        hrecords.mem_iff.2 (mem_filterMap_iff.2 ⟨raw, hraw, rfl⟩)
      exact ⟨raw.withKey key, List.mem_filter.2 ⟨hmem, decide_eq_true rfl⟩, hf raw key⟩
  exact h.congr (written Record.startTime fun _ _ => rfl) (written Record.endTime fun _ _ => rfl)

end Delivered

/-! ## What is left -/

section Refreshes

variable {σ ρ ι : Type} [ColumnStore σ] [Resolver ρ] [Index ι]
variable {settings : Settings} {schemas : Schema.Registry} {store : σ} {shard : Shard}
  {first last : Int} {parallelism : Option Nat} {schedule : List Choice} {n : Nat}

/-- A refresh that ends well has taken its course, and has written a row for each record that is
downsampled. -/
lemma exists_course_of_refresh {w w' : World ρ ι}
    (h : (Strategy.refresh first last parallelism).run settings schemas store shard schedule w =
      (.ok n, w')) :
    first ≤ last ∧ ∃ tales j tail,
      Course .upsert (hourStart first) (some (hourStart last))
        ((Strategy.refresh first last parallelism).streams settings schemas store shard) (.ok n)
        w w' (.ok n) tales j tail := by
  by_cases hordered : (Strategy.refresh first last parallelism).IsOrdered
  · obtain ⟨written?, tales, j, tail, course⟩ :=
      exists_course hordered settings schemas store shard schedule w
    rw [h] at course
    obtain rfl := course.count n rfl
    exact ⟨hordered, tales, j, tail, course⟩
  · obtain ⟨a, b, hplan⟩ := Strategy.exists_plan_eq_error settings schemas store shard hordered
    rw [Strategy.run, hplan] at h
    cases (Prod.mk.inj h).1

/-- What a refresh leaves under a key: the entry that the key had, if no record is downsampled to
it, and otherwise one with the least window that holds that entry and those records, under an id
that was given for the key. -/
lemma Course.entry_of_refresh [LawfulIndex ι] {w w' : World ρ ι} {tales : List Tale}
    {j tail : List Action}
    (h : Course .upsert (hourStart first) (some (hourStart last))
      ((Strategy.refresh first last parallelism).streams settings schemas store shard) (.ok n)
      w w' (.ok n) tales j tail) (key : Key) :
    (deliveredFor schemas store shard first last key = [] →
      (LawfulIndex.committed w'.index).get? key = LawfulIndex.current? w.index key) ∧
    (deliveredFor schemas store shard first last key ≠ [] →
      ∃ e, (LawfulIndex.committed w'.index).get? key = some e ∧
        e.Spans (LawfulIndex.current? w.index key)
          (deliveredFor schemas store shard first last key) ∧
        ∃ r, r.key = key ∧ .consulted r (.id e.id) ∈ j) := by
  obtain ⟨hcommitted, -⟩ := h.contents_of_ok
  have rows := h.account.exists_row_iff key
  rw [recordsOf_streams, exists_mem_filterMap_iff] at rows
  refine ⟨fun hnone => ?_, fun hsome => ?_⟩
  · rw [hcommitted, entryAfter_eq_of_forall_ne]
    exact fun row hrow hkey => rows.1 ⟨row, hrow, hkey⟩ hnone
  · obtain ⟨e, he, row, hrow, hkey, hid⟩ :=
      exists_entryAfter (rows.2 hsome) .upsert (LawfulIndex.current? w.index key)
    have spans := spans_entryAfter key (LawfulIndex.current? w.index key) (written j)
    rw [he] at spans
    have perm := h.account.written_perm
    rw [recordsOf_streams] at perm
    obtain ⟨r, hr, ha⟩ := h.account.exists_consulted_of_mem hrow
    refine ⟨e, (hcommitted key).trans he, spans_deliveredFor perm spans, r, hr.trans hkey, ?_⟩
    rwa [← hid]

end Refreshes

/-- **What a refresh leaves.**  A refresh that ends well, on either index and under any schedule,
has counted the records that are downsampled.  Readers see what is committed: a key to which none
of them is downsampled has the entry that it had, be it committed or still pending; any other key
has an entry with the least window that holds its former one and those of all its records.

If the resolver gives ids by key, that entry has the id of its key.  If it is an assignment, keys
that had an id keep it, and the keys that are new have the next ids in some order, each one its
own; the entries have these ids. -/
theorem contents_of_refresh {σ : Type} [ColumnStore σ] (settings : Settings)
    (schemas : Schema.Registry) (store : σ) (shard : Shard) (first last : Int)
    (parallelism : Option Nat) (schedule : List Choice) :
    let found := deliveredFor schemas store shard first last
    (∀ {ρ : Type} [Resolver ρ] (w w' : World ρ AnyIndex) (n : Nat),
      (Strategy.refresh first last parallelism).run settings schemas store shard schedule w =
        (.ok n, w') →
      n = ((delivered store shard first last).filterMap schemas.downsampleRecord).length ∧
      w'.index.reader = w'.index.committed ∧
      ∀ key,
        (found key = [] → w'.index.committed.get? key = w.index.current? key) ∧
        (found key ≠ [] → ∃ e, w'.index.committed.get? key = some e ∧
          e.Spans (w.index.current? key) (found key) ∧
          ∀ f, Resolver.IsByKey w.resolver f → e.id = f key)) ∧
    (∀ (w w' : World Keyed AnyIndex) (n : Nat),
      (Strategy.refresh first last parallelism).run settings schemas store shard schedule w =
        (.ok n, w') →
      ∃ news : List Key, news.Nodup ∧
        (∀ key, key ∈ news ↔ found key ≠ [] ∧ w.resolver.ids.get? key = none) ∧
        (∀ i key, news[i]? = some key →
          w'.resolver.ids.get? key = some (w.resolver.counter.next + i)) ∧
        (∀ key, key ∉ news → w'.resolver.ids.get? key = w.resolver.ids.get? key) ∧
        w'.resolver.counter.next = w.resolver.counter.next + news.length ∧
        ∀ key, found key ≠ [] →
          (w'.index.committed.get? key).map Entry.id = w'.resolver.ids.get? key) := by
  intro found
  refine ⟨fun {ρ} _ w w' n h => ?_, fun w w' n h => ?_⟩
  · obtain ⟨-, tales, j, tail, course⟩ := exists_course_of_refresh h
    have counted := course.account.length_eq
    rw [recordsOf_streams] at counted
    refine ⟨counted.symm, course.contents_of_ok.2, fun key => ?_⟩
    obtain ⟨hnone, hsome⟩ := course.entry_of_refresh key
    refine ⟨hnone, fun hne => ?_⟩
    obtain ⟨e, he, spans, r, hr, ha⟩ := hsome hne
    refine ⟨e, he, spans, fun f hf => ?_⟩
    rw [← hr]
    exact course.evolves.eq_of_isByKey hf (List.mem_append_left _ (List.mem_append_right _ ha))
  · obtain ⟨-, tales, j, tail, course⟩ := exists_course_of_refresh h
    obtain ⟨news, grows, hnews, hgiven⟩ := course.exists_news
    refine ⟨news, grows.nodup, fun key => ?_, fun i key => grows.get?_of_getElem?,
      fun key => grows.get?_of_notMem, grows.next, fun key hne => ?_⟩
    · rw [hnews, recordsOf_streams, exists_mem_filterMap_iff]
    · obtain ⟨e, he, -, r, hr, ha⟩ := (course.entry_of_refresh key).2 hne
      have committed : w'.index.committed.get? key = some e := he
      rw [committed, ← hr, hgiven r e.id ha]
      rfl

/-- Two records of one series, updated in different hours. -/
def twoHours : RecordLog :=
  ⟨[⟨⟨"metrics", 0⟩, ⟨Schema.encodeKey "gauge" [1], 10, 20⟩, 5⟩,
    ⟨⟨"metrics", 0⟩, ⟨Schema.encodeKey "gauge" [1], 5, 12⟩, 6⟩]⟩

/-- A refresh of an empty index from both of them. -/
def twoHoursCall {ρ : Type} [Resolver ρ] (resolver : ρ) :
    Except Failure Nat × World ρ AnyIndex :=
  (Strategy.refresh 5 6 (some 2)).run ⟨1, 0⟩ ⟨[⟨"gauge", some "ds-gauge"⟩]⟩ twoHours
    ⟨"metrics", 0⟩ [] ⟨resolver, .volatile {}, []⟩

/-- They make one entry, under the id of its key, and one id is taken. -/
theorem contents_of_refresh_twoHours :
    (twoHoursCall Rule.length).1 = .ok 2 ∧
    (∃ e, (twoHoursCall Rule.length).2.index.committed.get? [166, 238, 1] = some e ∧ e.id = 3) ∧
    (twoHoursCall Keyed.fresh).1 = .ok 2 ∧
    ∃ news : List Key, news.Nodup ∧ [166, 238, 1] ∈ news ∧
      (twoHoursCall Keyed.fresh).2.resolver.counter.next = 0 + news.length := by
  have ruled : (twoHoursCall Rule.length).1 = .ok 2 := by decide +kernel
  have assigned : (twoHoursCall Keyed.fresh).1 = .ok 2 := by decide +kernel
  obtain ⟨hcontents, hids⟩ := contents_of_refresh ⟨1, 0⟩ ⟨[⟨"gauge", some "ds-gauge"⟩]⟩ twoHours
    ⟨"metrics", 0⟩ 5 6 (some 2) []
  obtain ⟨-, -, hentries⟩ := hcontents _ _ 2 (Prod.ext ruled rfl)
  obtain ⟨e, he, -, hid⟩ := (hentries [166, 238, 1]).2 (by decide +kernel)
  obtain ⟨news, hnodup, hnews, -, -, hnext, -⟩ := hids _ _ 2 (Prod.ext assigned rfl)
  exact ⟨ruled, ⟨e, he, hid _ (Rule.isByKey List.length)⟩, assigned, news, hnodup,
    (hnews _).2 (by decide +kernel), hnext⟩

end Bootstrap

end ShardIndex
