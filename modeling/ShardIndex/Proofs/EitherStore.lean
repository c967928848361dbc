import ShardIndex.Proofs.Buckets
import ShardIndex.Proofs.Rerun

/-!
# Rebuilding from either store

A log gives a raw rebuilding every record that was ever written to a shard, and a paged store gives
it the last record of each key, in another order.  The rebuilding adds its records one after
another, so that of several records of a key the last one stays (`Bootstrap.entryAfter_add_eq`), and
this is in both stores the one that was written last (`AnyStore.Keeps.getLast?_filter`).  What a
rebuilding leaves is therefore a matter of what was written (`Bootstrap.committed_of_raw`) and not
of the store (`Bootstrap.contents_of_raw_eq`).
-/

namespace ShardIndex

/-! ## The last record of a key -/

lemma Filed.getLast?_filter_latest (l : List Filed) (slot : Shard × Key) :
    ((latest l).filter fun f => f.slot = slot).getLast? =
      (l.filter fun f => f.slot = slot).getLast? := by
  induction l using List.reverseRecOn with
  | nil => rfl
  | append_singleton rest g ih =>
    rw [latest_concat, List.filter_append, List.filter_append, List.getLast?_append,
      List.getLast?_append, ← ih]
    by_cases hslot : g.slot = slot
    · rw [List.filter_cons_of_pos (by simpa using hslot)]
      rfl
    · have others : (fun f : Filed => decide (f.slot = slot) && decide (f.slot ≠ g.slot)) =
          fun f => decide (f.slot = slot) := by
        funext f
        rw [← Bool.decide_and, decide_eq_decide, and_iff_left_iff_imp]
        rintro rfl
        exact Ne.symm hslot
      rw [List.filter_filter, others]

/-- The last record that a store holds for a key is the last that was written for it. -/
lemma AnyStore.Keeps.getLast?_filter {s : AnyStore} {history : List Filed} (h : s.Keeps history)
    (slot : Shard × Key) :
    (s.filed.filter fun f => f.slot = slot).getLast? =
      (history.filter fun f => f.slot = slot).getLast? := by
  rw [h.filed_eq]
  cases s with
  | log l => rfl
  | paged r => exact Filed.getLast?_filter_latest history slot

lemma Identity.Resolver.map_fst_answers {ρ : Type} [Resolver ρ] (s : ρ) (l : List Record) :
    (answers s l).map Prod.fst = l := by
  induction l generalizing s with
  | nil => rfl
  | cons r rest ih => exact congrArg (r :: ·) (ih _)

namespace Bootstrap

open Identity RecordStream

lemma entryAfter_add_eq (key : Key) (before : Option Entry) (rows : List (Key × Entry)) :
    entryAfter .add key before rows =
      ((rows.filter fun row => row.1 = key).getLast?.map Prod.snd).or before := by
  induction rows using List.reverseRecOn with
  | nil => rfl
  | append_singleton rest row ih =>
    rw [entryAfter_append, ih, List.filter_append, List.getLast?_append]
    by_cases hkey : row.1 = key
    · rw [List.filter_cons_of_pos (by simpa using hkey)]
      exact if_pos hkey
    · rw [List.filter_cons_of_neg (by simpa using hkey)]
      exact if_neg hkey

section Calls

variable {ρ ι : Type} [Resolver ρ] [Index ι]

/-- If all records are written in their order and get the ids of their keys, the rows are what the
records make under these ids. -/
lemma Course.written_eq_of_isByKey {mode : WriteMode} {opens : Int} {complete : Option Int}
    {streams : List RecordStream} {result : Except Failure Nat} {n : Nat} {w w' : World ρ ι}
    {tales : List Tale} {j tail : List Action} {f : Key → PartId}
    (h : Course mode opens complete streams result w w' (.ok n) tales j tail)
    (hconsulted : consulted j <+: recordsOf streams) (hwritten : (written j).Sublist (granted j))
    (hf : Resolver.IsByKey w.resolver f) :
    written j = (recordsOf streams).map fun r => (r.key, r.entry (f r.key)) := by
  obtain ⟨said, rows⟩ := h.written_eq_of_inOrder hconsulted hwritten
  obtain ⟨-, hfine⟩ := h.account.isOk_iff.1 ⟨n, rfl⟩
  obtain ⟨w₁, w₂, same, hwriting⟩ := h.exists_writing
  have given : ∀ x ∈ answered j, Action.grant? (.consulted x.1 x.2) =
      some (x.1.key, x.1.entry (f x.1.key)) := by
    rintro ⟨r, answer⟩ hx
    have asked := mem_answered_iff.1 hx
    -- an answer that is no id would have failed the call
    obtain ⟨m, rfl⟩ : ∃ m, answer = .id m := by
      by_contra hnone
      exact hfine _ asked fun m hm => hnone ⟨m, hm⟩
    have hid : m = f r.key := hwriting.eq_of_isByKey (same.symm ▸ hf) asked
    rw [hid]
    rfl
  calc written j
      = (answered j).filterMap fun x => Action.grant? (.consulted x.1 x.2) := rows
    _ = (answered j).filterMap fun x => some (x.1.key, x.1.entry (f x.1.key)) :=
        List.filterMap_congr given
    _ = ((answered j).map Prod.fst).map fun r => (r.key, r.entry (f r.key)) := by
        rw [List.map_map, ← List.filterMap_eq_map]
        rfl
    _ = (recordsOf streams).map fun r => (r.key, r.entry (f r.key)) := by
        rw [said, Resolver.map_fst_answers]

variable {settings : Settings} {schemas : Schema.Registry} {s : AnyStore} {shard : Shard}
  {schedule : List Choice} {w w' : World ρ ι} {n : Nat} {history : List Filed} {f : Key → PartId}

lemma recordsOf_raw (settings : Settings) (schemas : Schema.Registry) (shard : Shard)
    (hs : s.IsSound) : recordsOf (Strategy.raw.streams settings schemas s shard) =
      (s.filed.filter fun g => g.shard = shard).map Filed.record := by
  rw [Strategy.streams, AnyStore.scan_eq hs]
  exact List.append_nil _

lemma count_of_raw (hs : s.Keeps history)
    (hrun : Strategy.raw.run settings schemas s shard schedule w = (.ok n, w')) :
    n = (s.kept history).countP fun g => g.shard = shard := by
  obtain ⟨tales, j, tail, course⟩ := exists_course_of_run_eq_ok hrun
  rw [← course.account.length_eq, recordsOf_raw settings schemas shard hs.sound, List.length_map,
    hs.filed_eq, List.countP_eq_length_filter]

/-- A raw rebuilding leaves for each key the record that was written last for it, under the id of
the key; a key for which nothing was written keeps the entry that it had. -/
theorem committed_of_raw [LawfulIndex ι] (hs : s.Keeps history)
    (hf : Resolver.IsByKey w.resolver f)
    (hrun : Strategy.raw.run settings schemas s shard schedule w = (.ok n, w')) (key : Key) :
    (LawfulIndex.committed w'.index).get? key =
      ((history.filter fun g => g.slot = (shard, key)).getLast?.map fun g =>
        g.record.entry (f key)).or (LawfulIndex.current? w.index key) := by
  obtain ⟨tales, j, tail, course⟩ := exists_course_of_run_eq_ok hrun
  have sequential : Strategy.raw.IsSequential settings := trivial
  obtain ⟨hconsulted, hwritten⟩ := course.inOrder sequential trivial hrun
  have rows := course.written_eq_of_isByKey hconsulted hwritten hf
  rw [recordsOf_raw settings schemas shard hs.sound, List.map_map] at rows
  -- the rows of the key are made from what the store holds for it
  have mine : (written j).filter (fun row => row.1 = key) =
      (s.filed.filter fun g => g.slot = (shard, key)).map fun g => (key, g.record.entry (f key)) := by
    rw [rows, List.filter_map, List.filter_filter]
    refine (List.map_congr_left ?_).trans (congrArg _ (List.filter_congr ?_))
    · intro g hg
      have hkey := (Bool.and_eq_true _ _ ▸ (List.mem_filter.1 hg).2).1
      simp only [Function.comp_apply, decide_eq_true_eq] at hkey ⊢
      rw [hkey]
    · intro g _
      simp [Filed.slot, Bool.and_comm]
  rw [(course.contents_of_ok).1 key]
  show entryAfter .add key _ (written j) = _
  rw [entryAfter_add_eq, mine, List.getLast?_map, hs.getLast?_filter, Option.map_map]
  rfl

end Calls

/-- **Rebuilding from either store.**  A log and a paged store, with pages of any size, have taken
the same batches.  A raw rebuilding is made from the one and from the other, each in a world of its
own: the indexes may be of different kinds, if the next write finds the same in both, and so may the
resolvers, if they give the ids of one function of the key.  If both rebuildings end well the same
is committed after both, and readers see the same, although the one has written every record of the
shard and the other only the last of each key. -/
theorem contents_of_raw_eq {ρ ρ' ι ι' : Type} [Resolver ρ] [Resolver ρ'] [Index ι] [Index ι']
    [LawfulIndex ι] [LawfulIndex ι'] {batches : List Batch} {batch : Nat} {s s' : AnyStore}
    (hlog : (AnyStore.log {}).Takes batches s)
    (hpaged : (AnyStore.paged ⟨{}, batch⟩).Takes batches s') {f : Key → PartId}
    {settings settings' : Settings} {schemas schemas' : Schema.Registry} {shard : Shard}
    {schedule schedule' : List Choice} {w v : World ρ ι} {w' v' : World ρ' ι'} {n n' : Nat}
    (hf : Resolver.IsByKey w.resolver f) (hf' : Resolver.IsByKey w'.resolver f)
    (hindex : LawfulIndex.current? w.index = LawfulIndex.current? w'.index)
    (hrun : Strategy.raw.run settings schemas s shard schedule w = (.ok n, v))
    (hrun' : Strategy.raw.run settings' schemas' s' shard schedule' w' = (.ok n', v')) :
    LawfulIndex.committed v.index = LawfulIndex.committed v'.index ∧
      LawfulIndex.reader v.index = LawfulIndex.reader v'.index ∧
      n = (Batch.filedAll batches).countP (fun g => g.shard = shard) ∧
      n' = (Filed.latest (Batch.filedAll batches)).countP (fun g => g.shard = shard) := by
  have keeps := hlog.keeps (AnyStore.keeps_nil rfl)
  have keeps' := hpaged.keeps (AnyStore.keeps_nil rfl)
  rw [List.nil_append] at keeps keeps'
  have same : LawfulIndex.committed v.index = LawfulIndex.committed v'.index := by
    refine Table.ext_get? fun key => ?_
    rw [committed_of_raw keeps hf hrun, committed_of_raw keeps' hf' hrun', hindex]
  obtain ⟨tales, j, tail, course⟩ := exists_course_of_run_eq_ok hrun
  obtain ⟨tales', j', tail', course'⟩ := exists_course_of_run_eq_ok hrun'
  have all := count_of_raw keeps hrun
  have latest := count_of_raw keeps' hrun'
  obtain ⟨l, rfl⟩ := hlog.exists_log
  obtain ⟨r, rfl⟩ := hpaged.exists_paged
  exact ⟨same, by rw [course.contents_of_ok.2, course'.contents_of_ok.2, same], all, latest⟩

/-- A raw rebuilding of a store on an index in which a write for the first key is not committed
yet. -/
def rawRebuilding (s : AnyStore) : Except Failure Nat × World Rule AnyIndex :=
  Strategy.raw.run ⟨1, 0⟩ ⟨[]⟩ s ⟨"metrics", 0⟩ []
    ⟨Rule.length, (Index.perform (AnyIndex.durable {}) (.write .upsert [170] ⟨9, 0, 99⟩)).2, []⟩

/-- A key is written, then another one, and then the first one again: the log hands out three
records and the paged store two, and the rebuildings leave the same. -/
theorem contents_of_raw_eq_threeRecords :
    let shard : Shard := ⟨"metrics", 0⟩
    let first : Batch := ⟨shard, [(⟨[170], 10, 20⟩, 5)]⟩
    let other : Batch := ⟨shard, [(⟨[171, 0], 0, 5⟩, 5)]⟩
    let again : Batch := ⟨shard, [(⟨[170], 10, 30⟩, 6)]⟩
    let log : AnyStore := .log ⟨Batch.filedAll [first, other, again]⟩
    let paged : AnyStore := .paged ⟨⟨[⟨2, ⟨shard, ⟨[171, 0], 0, 5⟩, 5⟩⟩,
      ⟨3, ⟨shard, ⟨[170], 10, 30⟩, 6⟩⟩]⟩, 1⟩
    (rawRebuilding log).1 = .ok 3 ∧ (rawRebuilding paged).1 = .ok 2 ∧
      (rawRebuilding log).2.index.committed = (rawRebuilding paged).2.index.committed ∧
      (rawRebuilding log).2.index.reader.get? [170] = some ⟨1, 10, 30⟩ := by
  intro shard first other again log paged
  have three : (rawRebuilding log).1 = .ok 3 := by decide +kernel
  have two : (rawRebuilding paged).1 = .ok 2 := by decide +kernel
  have taken : (AnyStore.log {}).Takes [first, other, again] log :=
    .cons rfl (.cons rfl (.cons rfl (.nil _)))
  let row (number : Nat) (b : Batch) : List StoredRow := b.filed.map (StoredRow.mk number)
  let store (rows : List StoredRow) : AnyStore := .paged ⟨⟨rows⟩, 1⟩
  have takenFirst : (store []).put shard first.items = (none, store (row 1 first)) :=
    AnyStore.put_paged (by decide +kernel)
  have takenOther : (store (row 1 first)).put shard other.items =
      (none, store (row 1 first ++ row 2 other)) := AnyStore.put_paged (by decide +kernel)
  have takenAgain : (store (row 1 first ++ row 2 other)).put shard again.items = (none, paged) :=
    AnyStore.put_paged (by decide +kernel)
  have taken' : (AnyStore.paged ⟨{}, 1⟩).Takes [first, other, again] paged :=
    .cons takenFirst (.cons takenOther (.cons takenAgain (.nil _)))
  obtain ⟨committed, -⟩ := contents_of_raw_eq taken taken' (Rule.isByKey List.length)
    (Rule.isByKey List.length) rfl (Prod.ext three rfl) (Prod.ext two rfl)
  exact ⟨three, two, committed, by decide +kernel⟩

end Bootstrap

end ShardIndex
