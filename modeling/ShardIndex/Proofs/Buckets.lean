import ShardIndex.Proofs.Reading

/-!
# The bucket of an hour

The records that a store has for an hour are meant to be those of the keys that were last written
in the hour (`RecordStream.IsBucket`).  A scan that no write interrupts gives out the rows of its
shard (`PagedReader.readAll_eq`), so what a store hands out is what it keeps
(`AnyStore.updatedIn_eq`): a log keeps all that was ever written, and a paged store the last record
of each key (`AnyStore.Keeps`).  A paged store therefore has the buckets right, and a log just as
long as no key of the hour is written again (`isBucket_updatedIn`).
-/

namespace ShardIndex

/-! ## What a store hands out -/

namespace AnyStore

variable {s : AnyStore}

lemma scan_eq (hs : s.IsSound) (shard : Shard) :
    ColumnStore.scan s shard =
      { records := (s.filed.filter fun f => f.shard = shard).map Filed.record } := by
  cases s with
  | log l => rfl
  | paged r =>
    show RecordStream.mk (r.readAll shard none) none = _
    rw [PagedReader.readAll_eq hs, filed, List.filter_map, List.map_map, PagedStore.ofShard]
    simp [Function.comp_def]

lemma updatedIn_eq (hs : s.IsSound) (shard : Shard) (hour : Int) :
    ColumnStore.updatedIn s shard hour =
      { records :=
          (s.filed.filter fun f => f.shard = shard ∧ f.hour = hour).map Filed.record } := by
  cases s with
  | log l =>
    show RecordStream.mk ((List.filter _ (l.entries.filter _)).map _) none = _
    rw [List.filter_filter]
    simp [filed, Bool.and_comm]
  | paged r =>
    show RecordStream.mk (r.readAll shard (some hour)) none = _
    rw [PagedReader.readAll_eq hs, filed, List.filter_map, List.map_map, PagedStore.ofShard]
    simp [Function.comp_def, eq_comm]

end AnyStore

/-! ## What a store keeps -/

namespace Filed

/-- The records of a list that are the last for their keys, in their order. -/
def latest : List Filed → List Filed
  | [] => []
  | f :: rest => if ∃ g ∈ rest, g.slot = f.slot then latest rest else f :: latest rest

variable {f : Filed} {l : List Filed}

/-- A record that comes last takes the place of the one that its key had. -/
lemma latest_concat (l : List Filed) (f : Filed) :
    latest (l ++ [f]) = (latest l).filter (fun g => g.slot ≠ f.slot) ++ [f] := by
  induction l with
  | nil => rfl
  | cons g rest ih =>
    by_cases hlater : ∃ h ∈ rest, h.slot = g.slot
    · have still : ∃ h ∈ rest ++ [f], h.slot = g.slot := by
        obtain ⟨h, hmem, hslot⟩ := hlater
        exact ⟨h, List.mem_append_left _ hmem, hslot⟩
      rw [List.cons_append, latest, if_pos still, latest, if_pos hlater, ih]
    · by_cases hslot : g.slot = f.slot
      · have now : ∃ h ∈ rest ++ [f], h.slot = g.slot :=
          ⟨f, List.mem_append_right _ (List.mem_singleton_self f), hslot.symm⟩
        rw [List.cons_append, latest, if_pos now, latest, if_neg hlater, ih,
          List.filter_cons_of_neg (by simpa using hslot)]
      · have neither : ¬ ∃ h ∈ rest ++ [f], h.slot = g.slot := by
          rintro ⟨h, hmem, hh⟩
          rcases List.mem_append.1 hmem with hmem | hmem
          · exact hlater ⟨h, hmem, hh⟩
          · rw [List.mem_singleton.1 hmem] at hh
            exact hslot hh.symm
        rw [List.cons_append, latest, if_neg neither, latest, if_neg hlater, ih,
          List.filter_cons_of_pos (by simpa using hslot), List.cons_append]

lemma isLatest_singleton {g : Filed} : f.IsLatest [g] ↔ f = g := by
  refine ⟨fun h => List.mem_singleton.1 h.mem, ?_⟩
  rintro rfl
  simp [IsLatest]

/-- A record is the last for its key if none comes for the key after it. -/
lemma isLatest_of_forall_ne {earlier later : List Filed} (h : ∀ g ∈ later, g.slot ≠ f.slot) :
    f.IsLatest (earlier ++ f :: later) := by
  rw [← List.singleton_append, ← List.append_assoc, isLatest_append_iff, isLatest_append_iff]
  exact Or.inr ⟨h, Or.inl (isLatest_singleton.2 rfl)⟩

lemma mem_latest : f ∈ latest l ↔ f.IsLatest l := by
  induction l using List.reverseRecOn with
  | nil => exact iff_of_false List.not_mem_nil fun h => List.not_mem_nil h.mem
  | append_singleton rest g ih =>
    have kept : f ∈ (latest rest).filter (fun h => h.slot ≠ g.slot) ↔
        (∀ h ∈ [g], h.slot ≠ f.slot) ∧ f.IsLatest rest := by
      rw [List.mem_filter, ih, List.forall_mem_singleton, and_comm, decide_eq_true_eq, ne_comm]
    rw [latest_concat, List.mem_append, kept, isLatest_append_iff, isLatest_singleton,
      List.mem_singleton, or_comm]

lemma nodup_latest (l : List Filed) : ((latest l).map slot).Nodup := by
  induction l using List.reverseRecOn with
  | nil => exact List.nodup_nil
  | append_singleton rest g ih =>
    rw [latest_concat, List.map_append]
    refine List.nodup_append.2 ⟨ih.sublist (List.filter_sublist.map _), List.nodup_singleton _, ?_⟩
    rintro slot hslot other hother rfl
    obtain ⟨h, hmem, rfl⟩ := List.mem_map.1 hslot
    have hne := of_decide_eq_true (List.mem_filter.1 hmem).2
    exact hne (List.mem_singleton.1 hother)

/-- Of the records of one shard that are the last for their keys, no two have the same key. -/
lemma nodup_keys_latest {p : Filed → Bool} {shard : Shard} (h : ∀ f, p f = true → f.shard = shard)
    (l : List Filed) : (((latest l).filter p).map fun f => f.record.key).Nodup := by
  refine List.Nodup.map_on (fun f hf g hg hkey => ?_)
    ((List.Nodup.of_map _ (nodup_latest l)).filter _)
  obtain ⟨hf, hshard⟩ := List.mem_filter.1 hf
  obtain ⟨hg, hshard'⟩ := List.mem_filter.1 hg
  exact List.inj_on_of_nodup_map (nodup_latest l) hf hg
    (Prod.ext ((h f hshard).trans (h g hshard').symm) hkey)

lemma latest_sublist (l : List Filed) : (latest l).Sublist l := by
  induction l with
  | nil => exact List.Sublist.slnil
  | cons f rest ih =>
    rw [latest]
    split
    · exact ih.cons f
    · exact ih.cons_cons f

end Filed

namespace AnyStore

/-- What a store keeps of all that was written to it. -/
def kept : AnyStore → List Filed → List Filed
  | .log _, history => history
  | .paged _, history => Filed.latest history

/-- A store holds of a history what stores of its kind keep. -/
structure Keeps (s : AnyStore) (history : List Filed) : Prop where
  sound : s.IsSound
  filed_eq : s.filed = s.kept history

variable {s s' : AnyStore} {history : List Filed} {b : Batch} {batches : List Batch}

lemma keeps_nil (h : s.filed = []) : s.Keeps [] where
  sound := by
    cases s with
    | log l => trivial
    | paged r =>
      obtain ⟨⟨rows⟩, batch⟩ := r
      obtain rfl : rows = [] := List.map_eq_nil_iff.1 h
      exact PagedStore.isSound_empty
  filed_eq := by
    rw [h]
    cases s <;> rfl

/-- A row that is put takes the place of the one that its key had. -/
lemma filed_put_row (t : PagedStore) (f : Filed) :
    (t.put f).rows.map StoredRow.filed =
      (t.rows.map StoredRow.filed).filter (fun g => g.slot ≠ f.slot) ++ [f] := by
  rw [PagedStore.put, List.map_append, List.filter_map]
  simp [Filed.slot, Function.comp_def]

lemma filed_put_rows {t : PagedStore} (shard : Shard) (items : List (Record × Int))
    (h : t.rows.map StoredRow.filed = Filed.latest history) :
    (items.foldl (fun t item => t.put ⟨shard, item.1, item.2⟩) t).rows.map StoredRow.filed =
      Filed.latest (history ++ Batch.filed ⟨shard, items⟩) := by
  induction items generalizing t history with
  | nil => exact h.trans (congrArg _ (List.append_nil _).symm)
  | cons item rest ih =>
    have step : (t.put ⟨shard, item.1, item.2⟩).rows.map StoredRow.filed =
        Filed.latest (history ++ [⟨shard, item.1, item.2⟩]) := by
      rw [filed_put_row, h, Filed.latest_concat]
    refine (ih step).trans (congrArg _ ?_)
    rw [List.append_assoc]
    rfl

lemma Keeps.put (h : s.Keeps history) (hput : s.put b.shard b.items = (none, s')) :
    s'.Keeps (history ++ b.filed) := by
  refine ⟨h.sound.put hput, ?_⟩
  cases s with
  | log l =>
    rw [filed_put_log hput]
    obtain ⟨-, rfl⟩ := Prod.mk.inj hput
    exact congrArg (· ++ b.filed) h.filed_eq
  | paged r =>
    obtain ⟨t, ht, rfl⟩ := PagedStore.put_eq_ok hput
    rw [PagedStore.write_eq_ok ht]
    exact filed_put_rows b.shard b.items h.filed_eq

/-- What a store holds after some batches is what its kind keeps of them. -/
lemma Takes.keeps (h : s.Takes batches s') (hs : s.Keeps history) :
    s'.Keeps (history ++ Batch.filedAll batches) := by
  induction h generalizing history with
  | nil => exact (List.append_nil history).symm ▸ hs
  | @cons s s' s'' b rest hput _ ih =>
    have whole : history ++ Batch.filedAll (b :: rest) =
        history ++ b.filed ++ Batch.filedAll rest := by
      rw [List.append_assoc]
      rfl
    exact whole ▸ ih (hs.put hput)

end AnyStore

/-! ## Buckets -/

/-- A stream that is the bucket of an hour: the keys of a shard that were last written in the hour,
each once and with the window of that write. -/
structure RecordStream.IsBucket (stream : RecordStream) (history : List Filed) (shard : Shard)
    (hour : Int) : Prop where
  whole : stream.failure = none
  nodup : (stream.records.map Record.key).Nodup
  mem_iff : ∀ r, r ∈ stream.records ↔
    ∃ f : Filed, f.IsLatest history ∧ f.shard = shard ∧ f.hour = hour ∧ f.record = r

namespace RecordStream.IsBucket

variable {stream stream' : RecordStream} {history : List Filed} {shard : Shard} {hour hour' : Int}

lemma key_ne (h : stream.IsBucket history shard hour) (h' : stream'.IsBucket history shard hour')
    (hhour : hour ≠ hour') : ∀ r ∈ stream.records, ∀ r' ∈ stream'.records, r.key ≠ r'.key := by
  intro r hr r' hr' hkey
  obtain ⟨f, hf, hshard, hin, rfl⟩ := (h.mem_iff r).1 hr
  obtain ⟨g, hg, hshard', hin', rfl⟩ := (h'.mem_iff r').1 hr'
  have hslot : g.slot = f.slot := Prod.ext (hshard'.trans hshard.symm) hkey.symm
  have same : f = g := by
    rw [Filed.IsLatest, hslot] at hg
    exact Option.some.inj (hf.symm.trans hg)
  exact hhour (hin.symm.trans (same ▸ hin'))

end RecordStream.IsBucket

/-- Whether no key of a shard is written again after it was written in an hour. -/
def WrittenOnce (history : List Filed) (shard : Shard) (hour : Int) : Prop :=
  history.Pairwise fun f g => f.shard = shard → f.hour = hour → g.slot ≠ f.slot

section

variable {history : List Filed} {shard : Shard} {hour : Int}

lemma mem_filter_hour {f : Filed} :
    f ∈ history.filter (fun f => f.shard = shard ∧ f.hour = hour) ↔
      f ∈ history ∧ f.shard = shard ∧ f.hour = hour := by
  rw [List.mem_filter, decide_eq_true_eq]

/-- The last records of the keys that were last written in an hour are the bucket of the hour. -/
lemma isBucket_latest (history : List Filed) (shard : Shard) (hour : Int) :
    RecordStream.IsBucket
      { records := ((Filed.latest history).filter fun f =>
          f.shard = shard ∧ f.hour = hour).map Filed.record } history shard hour where
  whole := rfl
  nodup := by
    rw [List.map_map]
    exact Filed.nodup_keys_latest (fun f hf => (of_decide_eq_true hf).1) history
  mem_iff r := by
    simp only [List.mem_map, mem_filter_hour, Filed.mem_latest, and_assoc]

/-- All records of an hour are its bucket if none of their keys is written again. -/
lemma WrittenOnce.isBucket (h : WrittenOnce history shard hour) :
    RecordStream.IsBucket
      { records := (history.filter fun f => f.shard = shard ∧ f.hour = hour).map Filed.record }
      history shard hour where
  whole := rfl
  nodup := by
    rw [List.map_map]
    refine List.pairwise_map.2 ((h.filter _).imp_of_mem fun {f g} hf hg hne hkey => ?_)
    obtain ⟨-, hshard, hin⟩ := mem_filter_hour.1 hf
    obtain ⟨-, hshard', -⟩ := mem_filter_hour.1 hg
    exact hne hshard hin (Prod.ext (hshard'.trans hshard.symm) (Eq.symm hkey))
  mem_iff r := by
    have last : ∀ f ∈ history, f.shard = shard → f.hour = hour → f.IsLatest history := by
      intro f hf hshard hin
      obtain ⟨earlier, later, rfl⟩ := List.append_of_mem hf
      have after := (List.pairwise_cons.1 (List.pairwise_append.1 h).2.1).1
      exact Filed.isLatest_of_forall_ne fun g hg => after g hg hshard hin
    rw [List.mem_map]
    constructor
    · rintro ⟨f, hf, rfl⟩
      obtain ⟨hf, hshard, hin⟩ := mem_filter_hour.1 hf
      exact ⟨f, last f hf hshard hin, hshard, hin, rfl⟩
    · rintro ⟨f, hf, hshard, hin, rfl⟩
      exact ⟨f, mem_filter_hour.2 ⟨hf.mem, hshard, hin⟩, rfl⟩

/-- A record that is the last for its key and is followed by another for the key occurs twice. -/
lemma Filed.IsLatest.twice_sublist {f g : Filed} (h : f.IsLatest history)
    (hfg : [f, g].Sublist history) (hslot : g.slot = f.slot) : [f, f].Sublist history := by
  obtain ⟨init, hinit⟩ := List.getLast?_eq_some_iff.1 h
  have both : [f, g].Sublist (init ++ [f]) := by
    rw [← hinit]
    simpa [hslot] using hfg.filter fun h => h.slot = f.slot
  obtain ⟨l, l', hsplit, hl, hl'⟩ := List.sublist_append_iff.1 both
  have earlier : [f].Sublist init := by
    rcases l with _ | ⟨f', rest⟩
    · rw [List.nil_append] at hsplit
      have := hl'.length_le
      rw [← hsplit] at this
      exact absurd this (Nat.not_succ_le_self 1)
    · rw [(List.cons.inj hsplit).1]
      exact (List.singleton_sublist.2 List.mem_cons_self).trans hl
  have twice := earlier.append (List.Sublist.refl [f])
  rw [← hinit] at twice
  exact twice.trans List.filter_sublist

/-- If all records of an hour are its bucket, none of their keys is written again. -/
lemma writtenOnce_of_isBucket
    (h : RecordStream.IsBucket
      { records := (history.filter fun f => f.shard = shard ∧ f.hour = hour).map Filed.record }
      history shard hour) : WrittenOnce history shard hour := by
  refine List.pairwise_iff_forall_sublist.2 fun {f g} hfg hshard hin hslot => ?_
  have hf : f ∈ history := hfg.subset List.mem_cons_self
  obtain ⟨f', hlatest, hshard', hin', hrecord⟩ := (h.mem_iff f.record).1
    (List.mem_map_of_mem (mem_filter_hour.2 ⟨hf, hshard, hin⟩))
  obtain rfl : f' = f := by
    cases f
    cases f'
    simp_all
  -- the key has its last record in the hour, and its earlier one is there as well
  have twice := ((hlatest.twice_sublist hfg hslot).filter fun f =>
    f.shard = shard ∧ f.hour = hour).map (Record.key ∘ Filed.record)
  have nodup := h.nodup
  rw [List.map_map] at nodup
  simpa [hshard, hin] using nodup.sublist twice

end

/-- **The buckets of a store.**  A store that takes batches hands out for an hour what it keeps of
them: a log everything that was written in the hour, a paged store what was written last for its
key.  This is the bucket of the hour in a paged store always, and no key is in the buckets of two
hours.  In a log it is the bucket just as long as no key of the hour is written again. -/
theorem isBucket_updatedIn {s s' : AnyStore} {batches : List Batch} (hempty : s.filed = [])
    (htakes : s.Takes batches s') (shard : Shard) (hour : Int) :
    ColumnStore.updatedIn s' shard hour =
        { records := ((s'.kept (Batch.filedAll batches)).filter fun f =>
            f.shard = shard ∧ f.hour = hour).map Filed.record } ∧
      ((ColumnStore.updatedIn s' shard hour).IsBucket (Batch.filedAll batches) shard hour ↔
        (∃ r, s' = .paged r) ∨ WrittenOnce (Batch.filedAll batches) shard hour) ∧
      ∀ r, s' = .paged r → ∀ hour' ≠ hour,
        ∀ x ∈ (ColumnStore.updatedIn s' shard hour).records,
          ∀ y ∈ (ColumnStore.updatedIn s' shard hour').records, x.key ≠ y.key := by
  have keeps := htakes.keeps (AnyStore.keeps_nil hempty)
  rw [List.nil_append] at keeps
  have contents (hour : Int) : ColumnStore.updatedIn s' shard hour =
      { records := ((s'.kept (Batch.filedAll batches)).filter fun f =>
          f.shard = shard ∧ f.hour = hour).map Filed.record } := by
    rw [AnyStore.updatedIn_eq keeps.sound, keeps.filed_eq]
  refine ⟨contents hour, ?_, ?_⟩
  · rw [contents hour]
    cases s' with
    | log l =>
      constructor
      · exact fun h => Or.inr (writtenOnce_of_isBucket h)
      · rintro (⟨r, hr⟩ | h)
        · cases hr
        · exact h.isBucket
    | paged r => exact iff_of_true (isBucket_latest _ _ _) (Or.inl ⟨r, rfl⟩)
  · rintro r rfl hour' hhour
    rw [contents hour, contents hour']
    exact (isBucket_latest _ _ _).key_ne (isBucket_latest _ _ _) hhour.symm

/-- A key is written in the fifth hour, and with a longer window in the sixth. -/
def rewrittenKey : List Batch :=
  [⟨⟨"metrics", 0⟩, [(⟨[170], 10, 20⟩, 5)]⟩, ⟨⟨"metrics", 0⟩, [(⟨[170], 10, 30⟩, 6)]⟩]

/-- A paged store has the key in the bucket of the sixth hour alone. -/
theorem isBucket_updatedIn_rewrittenKey :
    let shard : Shard := ⟨"metrics", 0⟩
    let store (number : Nat) (r : Record) (hour : Int) : AnyStore :=
      .paged ⟨⟨[⟨number, ⟨shard, r, hour⟩⟩]⟩, 1⟩
    let last := store 2 ⟨[170], 10, 30⟩ 6
    let fifth := ColumnStore.updatedIn last shard 5
    let sixth := ColumnStore.updatedIn last shard 6
    fifth.IsBucket (Batch.filedAll rewrittenKey) shard 5 ∧ fifth.records = [] ∧
      sixth.IsBucket (Batch.filedAll rewrittenKey) shard 6 ∧ sixth.records = [⟨[170], 10, 30⟩] := by
  intro shard store last fifth sixth
  have first : (AnyStore.paged ⟨{}, 1⟩).put shard [(⟨[170], 10, 20⟩, 5)] =
      (none, store 1 ⟨[170], 10, 20⟩ 5) := AnyStore.put_paged (by decide +kernel)
  have second : (store 1 ⟨[170], 10, 20⟩ 5).put shard [(⟨[170], 10, 30⟩, 6)] = (none, last) :=
    AnyStore.put_paged (by decide +kernel)
  have takes : (AnyStore.paged ⟨{}, 1⟩).Takes rewrittenKey last :=
    .cons first (.cons second (.nil _))
  have bucket (hour : Int) := (isBucket_updatedIn rfl takes shard hour).2.1
  exact ⟨(bucket 5).2 (Or.inl ⟨_, rfl⟩), by decide +kernel, (bucket 6).2 (Or.inl ⟨_, rfl⟩),
    by decide +kernel⟩

/-- A log has the key in the buckets of both hours. -/
theorem not_isBucket_updatedIn_rewrittenKey :
    ¬ ∀ (s s' : AnyStore) (batches : List Batch), s.filed = [] → s.Takes batches s' →
      ∀ shard hour, (ColumnStore.updatedIn s' shard hour).IsBucket (Batch.filedAll batches) shard
        hour := by
  intro h
  have takes : (AnyStore.log {}).Takes rewrittenKey (.log ⟨Batch.filedAll rewrittenKey⟩) :=
    .cons rfl (.cons rfl (.nil _))
  have bucket := h _ _ _ rfl takes ⟨"metrics", 0⟩ 5
  obtain ⟨f, hlatest, -, hin, hrecord⟩ := (bucket.mem_iff ⟨[170], 10, 20⟩).1 (by decide +kernel)
  obtain ⟨shard, record, hour⟩ := f
  have hshard : shard = ⟨"metrics", 0⟩ := by
    have := hlatest.mem
    simp_all [rewrittenKey, Batch.filedAll, Batch.filed]
  subst hshard hin hrecord
  exact absurd hlatest (by decide +kernel)

end ShardIndex
