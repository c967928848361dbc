import ShardIndex.Proofs.Coverage
import ShardIndex.Proofs.Leftovers
import ShardIndex.Proofs.Sequence
import ShardIndex.Source.Interrupted

/-!
# Running a failed call again

A call that failed before its commit leaves some of its rows in the index, where no reader sees
them, and the next commit would publish them.  When the same call is run again and ends well, it
has written a row for every record of the source, so also for each one of which a row was left.
Rows that were left are then of no account: a row that is added replaces them, and a row that is
merged spans the same window with them as without (`entryAfter_absorb`).

The main result is `contents_of_rerun`: running the call again leaves what it would have left if it
had never failed.
-/

namespace ShardIndex

namespace Bootstrap

open Identity RecordStream

/-! ## Rows of no account -/

/-- A key for which rows are written has in the end what the last of them makes of some entry. -/
lemma exists_entryAfter_eq_apply {key : Key} {rows : List (Key × Entry)}
    (h : ∃ row ∈ rows, row.1 = key) (mode : WriteMode) :
    ∃ e, ∀ before, ∃ existing,
      entryAfter mode key before rows = some (mode.apply existing e) := by
  induction rows using List.reverseRecOn with
  | nil =>
    obtain ⟨row, hrow, -⟩ := h
    cases hrow
  | append_singleton rows row ih =>
    by_cases hrow : row.1 = key
    · refine ⟨row.2, fun before => ⟨entryAfter mode key before rows, ?_⟩⟩
      rw [entryAfter_append]
      exact if_pos hrow
    · obtain ⟨other, hother, hkey⟩ := h
      rcases List.mem_append.1 hother with hother | hother
      · obtain ⟨e, he⟩ := ih ⟨other, hother, hkey⟩
        refine ⟨e, fun before => ?_⟩
        obtain ⟨existing, hexisting⟩ := he before
        refine ⟨existing, ?_⟩
        rw [entryAfter_append, hexisting]
        exact if_neg hrow
      · rw [List.mem_singleton.1 hother] at hkey
        exact absurd hkey hrow

lemma id_entryAfter_congr {key : Key} {rows : List (Key × Entry)} (h : ∃ row ∈ rows, row.1 = key)
    (mode : WriteMode) (before before' : Option Entry) :
    (entryAfter mode key before rows).map Entry.id =
      (entryAfter mode key before' rows).map Entry.id := by
  obtain ⟨e, he⟩ := exists_entryAfter_eq_apply h mode
  obtain ⟨existing, hexisting⟩ := he before
  obtain ⟨existing', hexisting'⟩ := he before'
  rw [hexisting, hexisting', Option.map_some, Option.map_some, mode.id_apply, mode.id_apply]

lemma entryAfter_add_congr {key : Key} {rows : List (Key × Entry)} (h : ∃ row ∈ rows, row.1 = key)
    (before before' : Option Entry) :
    entryAfter .add key before rows = entryAfter .add key before' rows := by
  obtain ⟨e, he⟩ := exists_entryAfter_eq_apply h .add
  obtain ⟨existing, hexisting⟩ := he before
  obtain ⟨existing', hexisting'⟩ := he before'
  rw [hexisting, hexisting']
  rfl

lemma exists_spans_entryAfter {key : Key} {rows : List (Key × Entry)}
    (h : ∃ row ∈ rows, row.1 = key) (before : Option Entry) :
    ∃ e, entryAfter .upsert key before rows = some e ∧
      e.Spans before ((rows.map Record.ofRow).filter fun r => r.key = key) := by
  obtain ⟨e, he, -⟩ := exists_entryAfter h .upsert before
  have spans := spans_entryAfter key before rows
  rw [he] at spans
  exact ⟨e, he, spans⟩

/-- Rows are of no account if rows for the same records are written after them. -/
theorem entryAfter_absorb {earlier rows : List (Key × Entry)}
    (h : ∀ row ∈ earlier, Record.ofRow row ∈ rows.map Record.ofRow) (mode : WriteMode) (key : Key)
    (before : Option Entry) :
    entryAfter mode key (entryAfter mode key before earlier) rows =
      entryAfter mode key before rows := by
  by_cases hrow : ∃ row ∈ rows, row.1 = key
  · cases mode with
    | add => exact entryAfter_add_congr hrow _ _
    | upsert =>
      have hrows : ∃ row ∈ earlier ++ rows, row.1 = key := by
        obtain ⟨row, hmem, hkey⟩ := hrow
        exact ⟨row, List.mem_append_right _ hmem, hkey⟩
      have sameId := id_entryAfter_congr hrow .upsert (entryAfter .upsert key before earlier) before
      rw [← entryAfter_append] at sameId ⊢
      obtain ⟨e, he, spans⟩ := exists_spans_entryAfter hrows before
      obtain ⟨e', he', spans'⟩ := exists_spans_entryAfter hrow before
      rw [he, he'] at sameId ⊢
      refine congrArg some (spans.unique spans' (Option.some.inj sameId) fun r => ?_)
      rw [List.mem_filter, List.mem_filter, List.map_append, List.mem_append]
      constructor
      · rintro ⟨hr | hr, hkey⟩
        · obtain ⟨row, hmem, rfl⟩ := List.mem_map.1 hr
          exact ⟨h row hmem, hkey⟩
        · exact ⟨hr, hkey⟩
      · rintro ⟨hr, hkey⟩
        exact ⟨Or.inr hr, hkey⟩
  · have none (l : List (Key × Entry)) (hl : ∀ row ∈ l, Record.ofRow row ∈ rows.map Record.ofRow) :
        ∀ row ∈ l, row.1 ≠ key := by
      rintro row hmem rfl
      obtain ⟨other, hother, hkey⟩ := List.mem_map.1 (hl row hmem)
      exact hrow ⟨other, hother, congrArg Record.key hkey⟩
    rw [entryAfter_eq_of_forall_ne (none earlier h)]

/-- Rows for the same records leave the same when they are merged, if their ids are given by
key. -/
lemma entryAfter_upsert_eq {rows rows' : List (Key × Entry)}
    (h : (rows.map Record.ofRow).Perm (rows'.map Record.ofRow))
    (hid : ∀ row ∈ rows, ∀ row' ∈ rows', row.1 = row'.1 → row.2.id = row'.2.id) (key : Key)
    (before : Option Entry) :
    entryAfter .upsert key before rows = entryAfter .upsert key before rows' := by
  have present : (∃ row ∈ rows, row.1 = key) ↔ ∃ row ∈ rows', row.1 = key := by
    have keys : (rows.map Prod.fst).Perm (rows'.map Prod.fst) := by
      have := h.map Record.key
      rwa [Record.map_key_map_ofRow, Record.map_key_map_ofRow] at this
    have := keys.mem_iff (a := key)
    rwa [List.mem_map, List.mem_map] at this
  by_cases hrow : ∃ row ∈ rows, row.1 = key
  · obtain ⟨e, he, spans⟩ := exists_spans_entryAfter hrow before
    obtain ⟨e', he', spans'⟩ := exists_spans_entryAfter (present.1 hrow) before
    obtain ⟨e₁, he₁, row, hmem, hkey, hid₁⟩ := exists_entryAfter hrow .upsert before
    obtain ⟨e₂, he₂, row', hmem', hkey', hid₂⟩ := exists_entryAfter (present.1 hrow) .upsert before
    obtain rfl : e₁ = e := Option.some.inj (he₁.symm.trans he)
    obtain rfl : e₂ = e' := Option.some.inj (he₂.symm.trans he')
    rw [he, he']
    refine congrArg some (spans.unique spans' ?_ fun r => (h.filter _).mem_iff)
    rw [← hid₁, ← hid₂]
    exact hid row hmem row' hmem' (hkey.trans hkey'.symm)
  · have hrow' : ¬ ∃ row ∈ rows', row.1 = key := fun hex => hrow (present.2 hex)
    rw [entryAfter_eq_of_forall_ne fun row hmem hkey => hrow ⟨row, hmem, hkey⟩,
      entryAfter_eq_of_forall_ne fun row hmem hkey => hrow' ⟨row, hmem, hkey⟩]

/-! ## Streams that break off -/

lemma records_elim_subset (s : RecordStream) (fault fault' : Option (Nat × Failure))
    (h : (fault'.elim s fun f => s.breakAfter f.1 f.2).failure = none) :
    (fault.elim s fun f => s.breakAfter f.1 f.2).records ⊆
      (fault'.elim s fun f => s.breakAfter f.1 f.2).records := by
  cases fault' with
  | some f => exact absurd h (failure_breakAfter_ne_none s f.1 f.2)
  | none => exact records_elim_breakAfter_subset s fault

/-- Whether a strategy writes the same whatever the time is. -/
def Strategy.IsTimeless : Strategy → Prop
  | .raw => True
  | .downsample _ _ _ => False
  | .refresh _ _ _ => True

lemma recordsOf_streams_subset {σ : Type} [ColumnStore σ] {strategy : Strategy}
    (htimeless : strategy.IsTimeless) {settings settings' : Settings} {schemas : Schema.Registry}
    {store : σ} {shard : Shard} {fault fault' : Option Int → Option (Nat × Failure)}
    (h : failuresOf (strategy.streams settings' schemas (⟨store, fault'⟩ : Interrupted σ) shard) =
      []) :
    recordsOf (strategy.streams settings schemas (⟨store, fault⟩ : Interrupted σ) shard) ⊆
      recordsOf (strategy.streams settings' schemas (⟨store, fault'⟩ : Interrupted σ) shard) := by
  have whole : ∀ s ∈ strategy.streams settings' schemas (⟨store, fault'⟩ : Interrupted σ) shard,
      s.failure = none := List.filterMap_eq_nil_iff.1 h
  intro r hr
  cases strategy with
  | raw =>
    obtain ⟨s, hs, hr⟩ := List.mem_flatMap.1 hr
    obtain rfl := List.mem_singleton.1 hs
    refine List.mem_flatMap.2 ⟨_, List.mem_singleton_self _, ?_⟩
    exact records_elim_subset _ _ _ (whole _ (List.mem_singleton_self _)) hr
  | downsample checkpoint retention parallelism => exact absurd htimeless id
  | refresh first last parallelism =>
    obtain ⟨s, hs, hr⟩ := List.mem_flatMap.1 hr
    obtain ⟨hour, hhour, rfl⟩ := List.mem_map.1 hs
    refine List.mem_flatMap.2 ⟨_, List.mem_map_of_mem hhour, ?_⟩
    have complete := whole _ (List.mem_map_of_mem hhour)
    obtain ⟨raw, hraw, hkey⟩ := List.mem_filterMap.1 hr
    exact List.mem_filterMap.2 ⟨raw, records_elim_subset _ _ _ complete hraw, hkey⟩

/-! ## The call that is run again and the call alone -/

section Reruns

variable {σ ρ ι : Type} [ColumnStore σ] [Resolver ρ] [Index ι]
variable {strategy : Strategy} {settings : Settings} {schemas : Schema.Registry} {store : σ}
  {shard : Shard} {schedule schedule' : List Choice} {w w' v v' : World ρ ι} {n n' : Nat}
  {result : Except Failure Nat}

/-- Whether the answers of a resolver to the records of a call depend neither on the schedule nor
on anything but the resolver: the call has one record in flight at most, or the resolver answers by
key. -/
def Strategy.IsSettled (strategy : Strategy) (settings : Settings) (schemas : Schema.Registry)
    (store : σ) (shard : Shard) (resolver : ρ) : Prop :=
  strategy.IsSequential settings ∨
    ∃ g, Resolver.AnswersByKey resolver
      (recordsOf (strategy.streams settings schemas store shard)) g

lemma Strategy.isOrdered_of_run_eq_ok
    (h : strategy.run settings schemas store shard schedule w = (.ok n, w')) :
    strategy.IsOrdered := by
  by_contra hordered
  obtain ⟨first, last, hplan⟩ :=
    Strategy.exists_plan_eq_error settings schemas store shard hordered
  rw [Strategy.run, hplan] at h
  cases (Prod.mk.inj h).1

lemma exists_course_of_run_eq_ok
    (h : strategy.run settings schemas store shard schedule w = (.ok n, w')) :
    ∃ tales j tail, Course strategy.mode (strategy.opensAt settings)
      (strategy.completesAt settings) (strategy.streams settings schemas store shard) (.ok n) w w'
      (.ok n) tales j tail := by
  obtain ⟨written?, tales, j, tail, course⟩ := exists_course
    (Strategy.isOrdered_of_run_eq_ok h) settings schemas store shard schedule w
  rw [h] at course
  obtain rfl := course.count n rfl
  exact ⟨tales, j, tail, course⟩

/-- If one call has ended well, the resolver refuses nothing in the other. -/
lemma Strategy.IsSettled.exists_id {written? : Except Failure Nat} {tales tales' : List Tale}
    {j j' tail tail' : List Action}
    (hsettled : strategy.IsSettled settings schemas store shard w.resolver)
    (hcall : strategy.run settings schemas store shard schedule w = (.ok n, w'))
    (course : Course strategy.mode (strategy.opensAt settings) (strategy.completesAt settings)
      (strategy.streams settings schemas store shard) (.ok n) w w' (.ok n) tales j tail)
    (hcall' : strategy.run settings schemas store shard schedule' v = (result, v'))
    (course' : Course strategy.mode (strategy.opensAt settings) (strategy.completesAt settings)
      (strategy.streams settings schemas store shard) result v v' written? tales' j' tail')
    (hresolver : v.resolver = w.resolver) {r : Record} {answer : Answer}
    (ha : .consulted r answer ∈ j') : ∃ m, answer = .id m := by
  have hordered := Strategy.isOrdered_of_run_eq_ok hcall
  obtain ⟨-, hfine⟩ := course.account.isOk_iff.1 ⟨n, rfl⟩
  obtain ⟨v₁, v₂, hv₁, writing⟩ := course'.exists_writing
  rw [hresolver] at hv₁
  rcases hsettled with hseq | ⟨g, hg⟩
  · obtain ⟨hconsulted, hwritten⟩ := course.inOrder hseq hordered hcall
    obtain ⟨⟨rest, hrest⟩, -⟩ := course'.inOrder hseq hordered hcall'
    obtain ⟨said, -⟩ := course.written_eq_of_inOrder hconsulted hwritten
    -- what was said in the one call is the beginning of what was said in the other
    have mem : .consulted r answer ∈ j := by
      rw [← mem_answered_iff, said, ← hrest, Resolver.answers_append]
      refine List.mem_append_left _ ?_
      rw [← hv₁, ← writing.answered_eq]
      exact mem_answered_iff.2 ha
    by_contra hnone
    exact hfine _ mem fun m hm => hnone ⟨m, hm⟩
  · have asked : consulted j' ⊆ recordsOf (strategy.streams settings schemas store shard) :=
      course'.account.consulted_subperm.subset
    have hr := asked (mem_consulted_iff.2 ⟨answer, ha⟩)
    obtain ⟨w₁, w₂, hw₁, writing₁⟩ := course.exists_writing
    obtain ⟨m, hm⟩ := course.account.exists_id_of_mem hr
    refine ⟨m, ?_⟩
    rw [writing.answer_eq (hv₁ ▸ hg) asked ha]
    exact (writing₁.answer_eq (hw₁ ▸ hg) course.account.consulted_subperm.subset hm).symm

/-- If one call has ended well, so does the other, unless a request of it fails. -/
lemma Strategy.IsSettled.eq_ok {written? : Except Failure Nat} {tales tales' : List Tale}
    {j j' tail tail' : List Action}
    (hsettled : strategy.IsSettled settings schemas store shard w.resolver)
    (hcall : strategy.run settings schemas store shard schedule w = (.ok n, w'))
    (course : Course strategy.mode (strategy.opensAt settings) (strategy.completesAt settings)
      (strategy.streams settings schemas store shard) (.ok n) w w' (.ok n) tales j tail)
    (hcall' : strategy.run settings schemas store shard schedule' v = (result, v'))
    (course' : Course strategy.mode (strategy.opensAt settings) (strategy.completesAt settings)
      (strategy.streams settings schemas store shard) result v v' written? tales' j' tail')
    (hresolver : v.resolver = w.resolver)
    (hfine : ∀ r cause, .requested r (some cause) ∉ v'.since v) : result = .ok n := by
  obtain ⟨whole, -⟩ := course.account.isOk_iff.1 ⟨n, rfl⟩
  rw [course'.evolves.since_eq] at hfine
  rw [← course.account.length_eq]
  refine course'.eq_ok_of_forall_not_fails whole fun a ha => ?_
  cases a with
  | announced event => exact id
  | requested r o =>
    cases o with
    | none => exact fun hne => hne rfl
    | some cause => exact absurd ha (hfine r cause)
  | consulted r answer =>
    -- once the writing is over the resolver is not asked any more
    have mem : .consulted r answer ∈ j' := by
      rcases List.mem_append.1 ha with ha | ha
      · rcases List.mem_cons.1 ha with ha | ha
        · cases ha
        · exact ha
      · have asked := mem_consulted_iff.2 ⟨answer, ha⟩
        rw [course'.conclusion.views_eq_nil.1] at asked
        cases asked
    obtain ⟨m, rfl⟩ := hsettled.exists_id hcall course hcall' course' hresolver mem
    exact fun hrefused => hrefused m rfl

/-- If both calls have ended well, they have written rows that leave the same. -/
lemma Strategy.IsSettled.entryAfter_written_eq {tales tales' : List Tale}
    {j j' tail tail' : List Action} (htimeless : strategy.IsTimeless)
    (hsettled : strategy.IsSettled settings schemas store shard w.resolver)
    (hcall : strategy.run settings schemas store shard schedule w = (.ok n, w'))
    (course : Course strategy.mode (strategy.opensAt settings) (strategy.completesAt settings)
      (strategy.streams settings schemas store shard) (.ok n) w w' (.ok n) tales j tail)
    (hcall' : strategy.run settings schemas store shard schedule' v = (.ok n', v'))
    (course' : Course strategy.mode (strategy.opensAt settings) (strategy.completesAt settings)
      (strategy.streams settings schemas store shard) (.ok n') v v' (.ok n') tales' j' tail')
    (hresolver : v.resolver = w.resolver) (key : Key) (before : Option Entry) :
    entryAfter strategy.mode key before (written j) =
      entryAfter strategy.mode key before (written j') := by
  have hordered := Strategy.isOrdered_of_run_eq_ok hcall
  by_cases hseq : strategy.IsSequential settings
  · obtain ⟨hconsulted, hwritten⟩ := course.inOrder hseq hordered hcall
    obtain ⟨hconsulted', hwritten'⟩ := course'.inOrder hseq hordered hcall'
    obtain ⟨said, rows⟩ := course.written_eq_of_inOrder hconsulted hwritten
    obtain ⟨said', rows'⟩ := course'.written_eq_of_inOrder hconsulted' hwritten'
    rw [rows, said, rows', said', hresolver]
  · obtain ⟨g, hg⟩ := hsettled.resolve_left hseq
    have upserts : strategy.mode = .upsert := by
      cases strategy with
      | raw => exact absurd trivial hseq
      | downsample checkpoint retention parallelism => exact absurd htimeless id
      | refresh first last parallelism => rfl
    rw [upserts]
    obtain ⟨w₁, w₂, hw₁, writing⟩ := course.exists_writing
    obtain ⟨v₁, v₂, hv₁, writing'⟩ := course'.exists_writing
    rw [hresolver] at hv₁
    refine entryAfter_upsert_eq
      (course.account.written_perm.trans course'.account.written_perm.symm) ?_ key before
    intro row hrow row' hrow' hkey
    obtain ⟨r, hr, ha⟩ := course.account.exists_consulted_of_mem hrow
    obtain ⟨r', hr', ha'⟩ := course'.account.exists_consulted_of_mem hrow'
    have given := writing.answer_eq (hw₁ ▸ hg) course.account.consulted_subperm.subset ha
    have given' := writing'.answer_eq (hv₁ ▸ hg) course'.account.consulted_subperm.subset ha'
    rw [hr, hkey, ← hr', ← given'] at given
    exact Answer.id.inj given

end Reruns

/-- **Running a failed call again.**  A raw rebuilding or a refresh has failed before its commit,
with any resolver, under any schedule and with faults in any streams.  The same call is run again
on an index that finds for its writes what the failed call has left, and ends well.  Let the call
be made also on an index as it was before the failed call, with the same resolver and under any
schedule.  If no request of that call fails it ends well with the same count; and if it ends well,
then what is committed and what readers see is the same after both.

The resolver may be any if the call has one record in flight; for more, it has to answer by key.
-/
theorem contents_of_rerun {σ ρ₀ ρ ι : Type} [ColumnStore σ] [Resolver ρ₀] [Resolver ρ] [Index ι]
    [AtomicIndex ι] {strategy : Strategy} {schemas : Schema.Registry} {store : σ} {shard : Shard}
    {settings₀ settings : Settings} {fault₀ fault : Option Int → Option (Nat × Failure)}
    {schedule₀ schedule schedule' : List Choice} {w₀ w₁ : World ρ₀ ι} {w w₂ v v' : World ρ ι}
    {e : Failure} {n : Nat} {result : Except Failure Nat} (htimeless : strategy.IsTimeless)
    (hfailed : strategy.run settings₀ schemas (⟨store, fault₀⟩ : Interrupted σ) shard schedule₀ w₀ =
      (.error e, w₁))
    (huncommitted : .requested .commit none ∉ w₁.since w₀)
    (hindex : LawfulIndex.current? w.index = LawfulIndex.current? w₁.index)
    (hrerun : strategy.run settings schemas (⟨store, fault⟩ : Interrupted σ) shard schedule w =
      (.ok n, w₂))
    (hindex' : LawfulIndex.current? v.index = LawfulIndex.current? w₀.index)
    (hresolver : v.resolver = w.resolver)
    (halone : strategy.run settings schemas (⟨store, fault⟩ : Interrupted σ) shard schedule' v =
      (result, v'))
    (hsettled : strategy.IsSettled settings schemas (⟨store, fault⟩ : Interrupted σ) shard
      w.resolver) :
    ((∀ r cause, .requested r (some cause) ∉ v'.since v) → result = .ok n) ∧
    (result.isOk → LawfulIndex.committed w₂.index = LawfulIndex.committed v'.index ∧
      LawfulIndex.reader w₂.index = LawfulIndex.reader v'.index) := by
  have hordered := Strategy.isOrdered_of_run_eq_ok hrerun
  obtain ⟨tales, j, tail, course⟩ := exists_course_of_run_eq_ok hrerun
  obtain ⟨whole, -⟩ := course.account.isOk_iff.1 ⟨n, rfl⟩
  refine ⟨fun hfine => ?_, fun hok => ?_⟩
  · obtain ⟨written?, tales', j', tail', course'⟩ :=
      exists_course hordered settings schemas (⟨store, fault⟩ : Interrupted σ) shard schedule' v
    rw [halone] at course'
    exact hsettled.eq_ok hrerun course halone course' hresolver hfine
  · obtain ⟨n', rfl⟩ : ∃ n', result = .ok n' := by
      cases result with
      | ok n' => exact ⟨n', rfl⟩
      | error e => cases hok
    obtain ⟨tales', j', tail', course'⟩ := exists_course_of_run_eq_ok halone
    have leaves := leaves_of_uncommitted hordered hfailed huncommitted
    obtain ⟨hcommitted, hreader⟩ := course.contents_of_ok
    obtain ⟨hcommitted', hreader'⟩ := course'.contents_of_ok
    have same : LawfulIndex.committed w₂.index = LawfulIndex.committed v'.index := by
      refine Table.ext_get? fun key => ?_
      rw [hcommitted, hcommitted', hindex, hindex', leaves.current?_eq, entryAfter_absorb,
        hsettled.entryAfter_written_eq htimeless hrerun course halone course' hresolver]
      intro row hrow
      refine course.account.written_perm.mem_iff.2 ?_
      exact recordsOf_streams_subset htimeless whole
        (leaves.subperm.subset (List.mem_map_of_mem hrow))
    exact ⟨same, by rw [hreader, hreader', same]⟩

/-- The stream of the second of two hours breaks off before its first record. -/
def brokenHour (hour : Option Int) : Option (Nat × Failure) :=
  if hour = some 6 then some (0, .source "gone") else none

/-- A refresh of both hours by two tasks. -/
def twoHoursAgain (fault : Option Int → Option (Nat × Failure)) (schedule : List Choice)
    (w : World Rule AnyIndex) : Except Failure Nat × World Rule AnyIndex :=
  (Strategy.refresh 5 6 (some 2)).run ⟨1, 0⟩ ⟨[⟨"gauge", some "ds-gauge"⟩]⟩
    (⟨twoHours, fault⟩ : Interrupted RecordLog) ⟨"metrics", 0⟩ schedule w

lemma run_twoHoursAgain {fault : Option Int → Option (Nat × Failure)} {schedule : List Choice}
    {w : World Rule AnyIndex} {result : Except Failure Nat}
    (h : (twoHoursAgain fault schedule w).1 = result) :
    (Strategy.refresh 5 6 (some 2)).run ⟨1, 0⟩ ⟨[⟨"gauge", some "ds-gauge"⟩]⟩
      (⟨twoHours, fault⟩ : Interrupted RecordLog) ⟨"metrics", 0⟩ schedule w =
        (result, (twoHoursAgain fault schedule w).2) :=
  Prod.ext h rfl

/-- The first hour is written, under an id that is not that of its key, before the second one breaks
off.  Running the call again leaves what it leaves on an index without entries. -/
theorem contents_of_rerun_twoHours :
    let before : World Rule AnyIndex := ⟨⟨fun _ => .id 9⟩, .durable {}, []⟩
    let failed := twoHoursAgain brokenHour [.pull 0, .advance 0, .advance 0, .pull 1] before
    let left : World Rule AnyIndex := ⟨Rule.length, failed.2.index, []⟩
    let again := twoHoursAgain (fun _ => none) [] left
    let empty : World Rule AnyIndex := ⟨Rule.length, .durable {}, []⟩
    let alone := twoHoursAgain (fun _ => none) [] empty
    failed.1 = .error (.source "gone") ∧
      failed.2.index.current? [166, 238, 1] = some ⟨9, 10, 20⟩ ∧
      again.1 = .ok 2 ∧ alone.1 = .ok 2 ∧
      again.2.index.committed = alone.2.index.committed ∧
      again.2.index.reader = alone.2.index.reader := by
  intro before failed left again empty alone
  have hfailed : failed.1 = .error (.source "gone") := by decide +kernel
  have hagain : again.1 = .ok 2 := by decide +kernel
  have halone : alone.1 = .ok 2 := by decide +kernel
  have byKey : Resolver.AnswersByKey Rule.length
      (recordsOf ((Strategy.refresh 5 6 (some 2)).streams ⟨1, 0⟩ ⟨[⟨"gauge", some "ds-gauge"⟩]⟩
        (⟨twoHours, fun _ => none⟩ : Interrupted RecordLog) ⟨"metrics", 0⟩))
      fun key => .id key.length := by
    intro asked _ r _
    rw [Rule.foldl_resolve]
    rfl
  have held : LawfulIndex.current? left.index = LawfulIndex.current? failed.2.index := rfl
  have held' : LawfulIndex.current? empty.index = LawfulIndex.current? before.index := rfl
  have timeless : (Strategy.refresh 5 6 (some 2)).IsTimeless := trivial
  obtain ⟨-, same⟩ := contents_of_rerun timeless (run_twoHoursAgain hfailed) (by decide +kernel)
    held (run_twoHoursAgain hagain) held' rfl (run_twoHoursAgain halone) (Or.inr ⟨_, byKey⟩)
  obtain ⟨committed, reader⟩ := same rfl
  exact ⟨hfailed, by decide +kernel, hagain, halone, committed, reader⟩

end Bootstrap

end ShardIndex
