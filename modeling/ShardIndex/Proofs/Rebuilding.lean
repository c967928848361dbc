import ShardIndex.Index.Monitored
import ShardIndex.Proofs.Allotment
import ShardIndex.Proofs.Rerun
import ShardIndex.Proofs.Rows

/-!
# Rebuilding again after a failure

A rebuilding from the records that are still alive may fail and be run again later.  By then the
retention reaches less far back, so a record that was alive for the first call need not be so for
the second, and then nothing overwrites the row that the first call has left for it.  The commit of
the second call publishes that row with its own.

`rows_of_downsample_again` says exactly which rows there are in the end: those of the second call,
and those that were left for records no longer alive.  If the time from which on records count as
alive has not risen between the calls there are none of these, and every id in the index was given
by the second call.
-/

namespace ShardIndex

namespace Bootstrap

open Identity RecordStream

/-! ## Rows over others -/

/-- A table to which some rows were added and then others, from nothing, has the later rows and
those of the earlier that have other keys. -/
lemma rows_perm_of_entryAfter_add {s : Snapshot} {earlier rows : List (Key × Entry)}
    (hearlier : (earlier.map Prod.fst).Nodup) (hrows : (rows.map Prod.fst).Nodup)
    (h : ∀ key, s.get? key = entryAfter .add key (entryAfter .add key none earlier) rows) :
    s.rows.Perm (rows ++ earlier.filter fun row => row.1 ∉ rows.map Prod.fst) := by
  have distinct : (rows ++ earlier.filter fun row => row.1 ∉ rows.map Prod.fst).Nodup := by
    refine List.Nodup.append (.of_map _ hrows) ((List.Nodup.of_map _ hearlier).filter _) ?_
    intro row hrow hother
    exact of_decide_eq_true (List.mem_filter.1 hother).2 (List.mem_map_of_mem hrow)
  refine (List.perm_ext_iff_of_nodup s.nodup_rows distinct).2 fun row => ?_
  obtain ⟨key, e⟩ := row
  rw [← Table.get?_eq_some_iff, h, List.mem_append, List.mem_filter, decide_eq_true_eq]
  by_cases hkey : key ∈ rows.map Prod.fst
  · -- the later row replaces any other
    obtain ⟨⟨key', e'⟩, hrow, rfl⟩ := List.mem_map.1 hkey
    rw [entryAfter_add_of_mem hrows hrow, Option.some.injEq]
    constructor
    · rintro rfl
      exact Or.inl hrow
    · rintro (hmem | ⟨-, hnot⟩)
      · have same : some e' = some e := by
          rw [← entryAfter_add_of_mem hrows hrow none, ← entryAfter_add_of_mem hrows hmem none]
        exact Option.some.inj same
      · exact absurd hkey hnot
  · have absent : ∀ row ∈ rows, row.1 ≠ key := fun row hrow heq =>
      hkey (heq ▸ List.mem_map_of_mem hrow)
    rw [entryAfter_eq_of_forall_ne absent]
    constructor
    · intro he
      by_cases hmem : ∃ row ∈ earlier, row.1 = key
      · obtain ⟨row, hrow, rfl⟩ := hmem
        rw [entryAfter_add_of_mem hearlier hrow, Option.some.injEq] at he
        rw [← he]
        exact Or.inr ⟨hrow, hkey⟩
      · rw [entryAfter_eq_of_forall_ne fun row hrow heq => hmem ⟨row, hrow, heq⟩] at he
        cases he
    · rintro (hmem | ⟨hmem, -⟩)
      · exact absurd rfl (absent _ hmem)
      · exact entryAfter_add_of_mem hearlier hmem none

/-! ## The two calls -/

section Again

variable {σ : Type} [ColumnStore σ] {store : σ} {shard : Shard} {checkpoint : Option Int}
  {now retention : Int}

lemma mem_alive_iff {r : Record} :
    r ∈ alive store shard checkpoint now retention ↔
      r ∈ (ColumnStore.scan store shard).records ∧
        effectiveCheckpoint checkpoint now retention < r.endTime := by
  rw [alive, List.mem_filter, decide_eq_true_eq, effectiveCheckpoint_lt_iff]

lemma alive_sublist (fault : Option Int → Option (Nat × Failure)) :
    (alive (⟨store, fault⟩ : Interrupted σ) shard checkpoint now retention).Sublist
      (alive store shard checkpoint now retention) := by
  refine List.Sublist.filter _ ?_
  show ((fault none).elim (ColumnStore.scan store shard) _).records.Sublist _
  cases fault none with
  | none => exact List.Sublist.refl _
  | some f => exact (records_breakAfter_initial _ _ _).sublist

lemma alive_eq_of_whole {fault : Option Int → Option (Nat × Failure)} {settings : Settings}
    {schemas : Schema.Registry} {parallelism : Option Nat}
    (h : failuresOf ((Strategy.downsample checkpoint retention parallelism).streams settings schemas
      (⟨store, fault⟩ : Interrupted σ) shard) = []) :
    alive (⟨store, fault⟩ : Interrupted σ) shard checkpoint now retention =
      alive store shard checkpoint now retention := by
  have whole : (ColumnStore.scan (⟨store, fault⟩ : Interrupted σ) shard).failure = none := by
    have unbroken := List.filterMap_eq_nil_iff.1 h
    rw [Strategy.streams, List.forall_mem_singleton] at unbroken
    exact unbroken
  have same : ColumnStore.scan (⟨store, fault⟩ : Interrupted σ) shard =
      ColumnStore.scan store shard := by
    show (fault none).elim (ColumnStore.scan store shard) _ = _
    cases hfault : fault none with
    | none => rfl
    | some f =>
      refine absurd ?_ (failure_breakAfter_ne_none (ColumnStore.scan store shard) f.1 f.2)
      have broken : ColumnStore.scan (⟨store, fault⟩ : Interrupted σ) shard =
          (ColumnStore.scan store shard).breakAfter f.1 f.2 := by
        show (fault none).elim (ColumnStore.scan store shard) _ = _
        rw [hfault]
        rfl
      rwa [broken] at whole
  rw [alive, alive, same]

/-! Rows for records that are alive. -/

section Rows

variable {earlier rows : List (Key × Entry)} {now₀ : Int}

lemma nodup_keys_of_subperm_alive
    (hkeys : ((ColumnStore.scan store shard).records.map Record.key).Nodup)
    (h : (rows.map Record.ofRow).Subperm (alive store shard checkpoint now retention)) :
    (rows.map Prod.fst).Nodup := by
  have distinct : ((alive store shard checkpoint now retention).map Record.key).Nodup :=
    hkeys.sublist (List.filter_sublist.map _)
  obtain ⟨l, hl, hsub⟩ := h
  rw [← Record.map_key_map_ofRow]
  exact (hl.map Record.key).nodup_iff.1 (distinct.sublist (hsub.map _))

/-- A row for a record that was alive has no later one exactly if its record is alive no more. -/
lemma notMem_keys_iff_of_perm_alive
    (hkeys : ((ColumnStore.scan store shard).records.map Record.key).Nodup)
    (hearlier : (earlier.map Record.ofRow).Subperm (alive store shard checkpoint now₀ retention))
    (hrows : (rows.map Record.ofRow).Perm (alive store shard checkpoint now retention))
    {row : Key × Entry} (hrow : row ∈ earlier) :
    row.1 ∉ rows.map Prod.fst ↔
      row.2.endTime ≤ effectiveCheckpoint checkpoint now retention := by
  have source := (mem_alive_iff.1 (hearlier.subset (List.mem_map_of_mem hrow))).1
  rw [← not_lt, ← Record.map_key_map_ofRow]
  refine not_congr ⟨fun hkey => ?_, fun hlive => ?_⟩
  · -- the record of the later row is the same, as it has the same key
    obtain ⟨r, hr, hkey⟩ := List.mem_map.1 hkey
    have hr := mem_alive_iff.1 (hrows.mem_iff.1 hr)
    have same : r = Record.ofRow row := List.inj_on_of_nodup_map hkeys hr.1 source hkey
    rw [same] at hr
    exact hr.2
  · exact List.mem_map.2 ⟨_, hrows.mem_iff.2 (mem_alive_iff.2 ⟨source, hlive⟩), rfl⟩

end Rows

variable {ρ₀ ι : Type} [Resolver ρ₀] [Index ι] [AtomicIndex ι] {schemas : Schema.Registry}
  {parallelism₀ parallelism : Option Nat} {settings₀ settings : Settings}
  {fault₀ fault : Option Int → Option (Nat × Failure)} {schedule₀ schedule : List Choice}
  {w₀ w₁ : World ρ₀ ι} {w w₂ : World Counter ι} {e : Failure} {n : Nat}

/-- **Rebuilding again after a failure.**  Say the keys of a shard are distinct, and a rebuilding
of an index without entries from the records still alive has failed before its commit: with any
resolver, wherever it failed and under any schedule.  The same call is run again, at any time and
under any schedule, on an index that finds for its writes what the first one has left; it has a
fresh counter, and ends well.

Then it has counted and written just the records that are alive by then, each once, under the ids
from zero on.  What is committed, and shown to the readers, are these rows together with the rows
that the first call has left for records that are alive no more.  There are none of these if the
time from which on records count as alive is not later for the second call. -/
theorem rows_of_downsample_again
    (hkeys : ((ColumnStore.scan store shard).records.map Record.key).Nodup)
    (hempty : LawfulIndex.current? w₀.index = fun _ => none)
    (hfailed : (Strategy.downsample checkpoint retention parallelism₀).run settings₀ schemas
      (⟨store, fault₀⟩ : Interrupted σ) shard schedule₀ w₀ = (.error e, w₁))
    (huncommitted : .requested .commit none ∉ w₁.since w₀)
    (hindex : LawfulIndex.current? w.index = LawfulIndex.current? w₁.index)
    (hfresh : w.resolver = Counter.fresh)
    (hagain : (Strategy.downsample checkpoint retention parallelism).run settings schemas
      (⟨store, fault⟩ : Interrupted σ) shard schedule w = (.ok n, w₂)) :
    let live := alive store shard checkpoint settings.now retention
    let rows := written (w₂.since w)
    let stale := (landed (w₁.since w₀)).filter fun row =>
      row.2.endTime ≤ effectiveCheckpoint checkpoint settings.now retention
    n = live.length ∧
    (rows.map Record.ofRow).Perm live ∧
    (rows.map fun row => row.2.id).Perm (List.range n) ∧
    (LawfulIndex.committed w₂.index).rows.Perm (rows ++ stale) ∧
    (LawfulIndex.committed w₂.index).size = n + stale.length ∧
    LawfulIndex.reader w₂.index = LawfulIndex.committed w₂.index ∧
    (effectiveCheckpoint checkpoint settings.now retention ≤
      effectiveCheckpoint checkpoint settings₀.now retention → stale = []) := by
  intro live rows stale
  obtain ⟨tales, j, tail, course⟩ := exists_course_of_run_eq_ok hagain
  obtain ⟨whole, -⟩ := course.account.isOk_iff.1 ⟨n, rfl⟩
  have ordered : (Strategy.downsample checkpoint retention parallelism₀).IsOrdered := trivial
  have leaves := leaves_of_uncommitted ordered hfailed huncommitted
  -- the rows of the second call are those of the records that are alive
  have hrows : rows = written j := by
    show written (w₂.since w) = written j
    rw [course.evolves.since_eq, course.views_eq.2.2]
  have records := recordsOf_streams_downsample (⟨store, fault⟩ : Interrupted σ) shard checkpoint
    retention settings schemas parallelism
  rw [alive_eq_of_whole whole] at records
  have written : (rows.map Record.ofRow).Perm live := by
    rw [hrows]
    exact course.account.written_perm.trans (List.Perm.of_eq records)
  have counted : n = live.length := by
    rw [← course.account.length_eq]
    exact congrArg List.length records
  have ids : (rows.map fun row => row.2.id).Perm (List.range n) := by
    have given := course.ids_perm.1
    rw [hfresh, ← hrows] at given
    rwa [List.range_eq_range']
  -- those of the first call were made from records of the source
  have left : ((landed (w₁.since w₀)).map Record.ofRow).Subperm
      (alive store shard checkpoint settings₀.now retention) := by
    have := leaves.subperm
    rw [recordsOf_streams_downsample] at this
    exact this.trans (alive_sublist fault₀).subperm
  have table : (LawfulIndex.committed w₂.index).rows.Perm (rows ++ stale) := by
    have merged := rows_perm_of_entryAfter_add (s := LawfulIndex.committed w₂.index)
      (nodup_keys_of_subperm_alive hkeys left) (nodup_keys_of_subperm_alive hkeys written.subperm)
      fun key => by
        rw [course.contents_of_ok.1, hindex, leaves.current?_eq, hempty, hrows]
        rfl
    have overwritten : ∀ row ∈ landed (w₁.since w₀),
        decide (row.1 ∉ rows.map Prod.fst) =
          decide (row.2.endTime ≤ effectiveCheckpoint checkpoint settings.now retention) :=
      fun row hrow => decide_eq_decide.2 (notMem_keys_iff_of_perm_alive hkeys left written hrow)
    rwa [List.filter_congr overwritten] at merged
  refine ⟨counted, written, ids, table, ?_, course.contents_of_ok.2, fun hclock => ?_⟩
  · have length : rows.length = n := by
      rw [counted, ← written.length_eq, List.length_map]
    rw [Table.size, table.length_eq, List.length_append, length]
  · refine List.filter_eq_nil_iff.2 fun row hrow => ?_
    rw [decide_eq_true_eq, not_le]
    exact lt_of_le_of_lt hclock (mem_alive_iff.1 (left.subset (List.mem_map_of_mem hrow))).2

end Again

/-- Two records, of which one ends early. -/
def twoEnds : RecordLog :=
  ⟨[⟨⟨"metrics", 0⟩, ⟨[170], 0, 100⟩, 0⟩, ⟨⟨"metrics", 0⟩, ⟨[187], 0, 500⟩, 0⟩]⟩

/-- A rebuilding from what is alive, with a retention of fifty milliseconds. -/
def twoEndsCall (now : Int) (w : World Counter (Monitored AnyIndex)) :
    Except Failure Nat × World Counter (Monitored AnyIndex) :=
  (Strategy.downsample none 50 (some 1)).run ⟨1, now⟩ .empty
    (⟨twoEnds, fun _ => none⟩ : Interrupted RecordLog) ⟨"metrics", 0⟩ [] w

/-- A fresh counter, and an index without entries whose next commit fails. -/
def fullWorld : World Counter (Monitored AnyIndex) :=
  ⟨.fresh, Monitored.arm ⟨.volatile {}, [], []⟩ ⟨"commit", 0, "disk full"⟩, []⟩

/-- The call that fails at the commit, run again at some time with a fresh counter. -/
def twoEndsAgain (now : Int) : Except Failure Nat × World Counter (Monitored AnyIndex) :=
  twoEndsCall now ⟨.fresh, (twoEndsCall 100 fullWorld).2.index, []⟩

/-- Twenty milliseconds later both records are alive still, and the index has just the rows of the
second call. -/
theorem rows_of_downsample_again_twoEnds :
    (twoEndsCall 100 fullWorld).1 = .error (.index "disk full") ∧ (twoEndsAgain 120).1 = .ok 2 ∧
      (twoEndsAgain 120).2.index.inner.committed.rows.Perm
        [([170], ⟨0, 0, 100⟩), ([187], ⟨1, 0, 500⟩)] := by
  have failed : (twoEndsCall 100 fullWorld).1 = .error (.index "disk full") := by decide +kernel
  have again : (twoEndsAgain 120).1 = .ok 2 := by decide +kernel
  let left : World Counter (Monitored AnyIndex) :=
    ⟨.fresh, (twoEndsCall 100 fullWorld).2.index, []⟩
  have held : LawfulIndex.current? left.index =
    LawfulIndex.current? (twoEndsCall 100 fullWorld).2.index := rfl
  have called : twoEndsCall 100 fullWorld = (.error (.index "disk full"),
    (twoEndsCall 100 fullWorld).2) := Prod.ext failed rfl
  have calledAgain : twoEndsCall 120 left = (.ok 2, (twoEndsAgain 120).2) := Prod.ext again rfl
  obtain ⟨-, -, -, table, -⟩ := rows_of_downsample_again (by decide) (funext fun _ => rfl) called
    (by decide +kernel) held rfl calledAgain
  have rows : written ((twoEndsAgain 120).2.since left) =
      [([170], ⟨0, 0, 100⟩), ([187], ⟨1, 0, 500⟩)] := by decide +kernel
  have stale : ((landed ((twoEndsCall 100 fullWorld).2.since fullWorld)).filter fun row =>
      row.2.endTime ≤ effectiveCheckpoint none (Settings.now ⟨1, 120⟩) 50) = [] := by
    decide +kernel
  rw [rows, stale] at table
  exact ⟨failed, again, table⟩

/-- A hundred milliseconds later one of them is not.  The call counts one record, but the index has
the row that was left for the other as well, under the same id. -/
theorem rows_of_downsample_again_late :
    (twoEndsCall 100 fullWorld).1 = .error (.index "disk full") ∧
      .requested .commit none ∉ (twoEndsCall 100 fullWorld).2.since fullWorld ∧
      (twoEndsAgain 200).1 = .ok 1 ∧
      (twoEndsAgain 200).2.index.inner.committed.size = 2 ∧
      (twoEndsAgain 200).2.index.inner.committed.rows =
        [([170], ⟨0, 0, 100⟩), ([187], ⟨0, 0, 500⟩)] := by
  decide +kernel

end Bootstrap

end ShardIndex
