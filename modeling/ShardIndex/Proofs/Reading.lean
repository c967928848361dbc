import ShardIndex.Proofs.AtRest
import ShardIndex.Proofs.Feed
import ShardIndex.Source.Interrupted

/-!
# Streams of a store that is being written

While the records of an hour are read the store may be written.  A log hands out what it has when
the stream is opened; a paged store is read by a scan that goes on in the rows as they are by then.
`HandsOut` collects the streams that a call can get for an hour while some batches are taken.

A record that is in the store before, and whose key nobody writes again, is in each of them that
does not break off (`HandsOut.mem_records`): in a log it stays where it is, and in a paged store its
row stays ahead of the scan until the scan has it (`Scan.Awaits`).  Without writes the streams of
the store itself are among them (`handsOut_updatedIn`).
-/

namespace ShardIndex

open RecordStream

/-! ## Batches -/

/-- Records that are written to a shard together. -/
structure Batch where
  shard : Shard
  /-- The records, each with the hour of its update. -/
  items : List (Record × Int)
deriving DecidableEq, Repr

namespace Batch

/-- How the records of a batch are filed. -/
def filed (b : Batch) : List Filed := b.items.map fun item => ⟨b.shard, item.1, item.2⟩

/-- How the records of some batches are filed, one batch after another. -/
def filedAll (l : List Batch) : List Filed := l.flatMap filed

@[simp] lemma filedAll_append (l l' : List Batch) :
    filedAll (l ++ l') = filedAll l ++ filedAll l' :=
  List.flatMap_append

end Batch

/-- Whether a record is the last of some that were written for its key. -/
def Filed.IsLatest (f : Filed) (l : List Filed) : Prop :=
  (l.filter fun g => g.slot = f.slot).getLast? = some f

instance (f : Filed) (l : List Filed) : Decidable (f.IsLatest l) :=
  inferInstanceAs (Decidable (_ = _))

lemma Filed.IsLatest.mem {f : Filed} {l : List Filed} (h : f.IsLatest l) : f ∈ l :=
  List.mem_of_mem_filter (List.mem_of_getLast? h)

/-- A record is the last for its key if it is so in the second part of a list, or in the first and
the second has none for the key. -/
lemma Filed.isLatest_append_iff {f : Filed} {l l' : List Filed} :
    f.IsLatest (l ++ l') ↔ f.IsLatest l' ∨ (∀ g ∈ l', g.slot ≠ f.slot) ∧ f.IsLatest l := by
  have empty : (l'.filter fun g => g.slot = f.slot) = [] ↔ ∀ g ∈ l', g.slot ≠ f.slot := by
    simp [List.filter_eq_nil_iff]
  rw [IsLatest, IsLatest, IsLatest, List.filter_append, List.getLast?_append, ← empty]
  cases hlast : (l'.filter fun g => g.slot = f.slot).getLast? with
  | none =>
    rw [List.getLast?_eq_none_iff.1 hlast]
    simp
  | some g =>
    have hne : (l'.filter fun g => g.slot = f.slot) ≠ [] := fun hnil => by
      rw [hnil] at hlast
      cases hlast
    simp [hne]

/-- A store takes batches one after another, and refuses none of them. -/
inductive AnyStore.Takes : AnyStore → List Batch → AnyStore → Prop
  | nil (s : AnyStore) : Takes s [] s
  | cons {s s' s'' : AnyStore} {b : Batch} {rest : List Batch} :
      s.put b.shard b.items = (none, s') → Takes s' rest s'' → Takes s (b :: rest) s''

/-! ## What is in a store -/

namespace PagedStore

variable {t t' : PagedStore} {row : StoredRow} {shard : Shard}

/-- A row stays as long as nobody writes its key. -/
lemma mem_foldl_put {items : List (Record × Int)} (hrow : row ∈ t.rows)
    (h : ∀ item ∈ items, (Filed.mk shard item.1 item.2).slot ≠ row.filed.slot) :
    row ∈ (items.foldl (fun t item => t.put ⟨shard, item.1, item.2⟩) t).rows := by
  induction items generalizing t with
  | nil => exact hrow
  | cons item rest ih =>
    obtain ⟨hitem, hrest⟩ := List.forall_mem_cons.1 h
    exact ih (mem_put.2 (Or.inl ⟨hrow, Ne.symm hitem⟩)) hrest

/-- The last record that is written for a key has a row. -/
lemma exists_row_foldl_put {f : Filed} {items : List (Record × Int)}
    (h : f.IsLatest (Batch.filed ⟨shard, items⟩)) :
    ∃ row ∈ (items.foldl (fun t item => t.put ⟨shard, item.1, item.2⟩) t).rows, row.filed = f := by
  induction items using List.reverseRecOn with
  | nil => cases h.mem
  | append_singleton items item ih =>
    have split : Batch.filed ⟨shard, items ++ [item]⟩ =
      Batch.filed ⟨shard, items⟩ ++ [⟨shard, item.1, item.2⟩] := List.map_append
    rw [split, Filed.isLatest_append_iff] at h
    rw [List.foldl_append, List.foldl_cons, List.foldl_nil]
    rcases h with hlast | ⟨hother, hearlier⟩
    · rw [List.mem_singleton.1 hlast.mem]
      exact ⟨_, mem_put.2 (Or.inr rfl), rfl⟩
    · obtain ⟨row, hrow, hfiled⟩ := ih hearlier
      have kept := hother _ (List.mem_singleton_self _)
      rw [← hfiled] at kept
      exact ⟨row, mem_put.2 (Or.inl ⟨hrow, Ne.symm kept⟩), hfiled⟩

lemma put_eq_ok {r : PagedReader} {s' : AnyStore} {b : Batch}
    (h : (AnyStore.paged r).put b.shard b.items = (none, s')) :
    ∃ t, r.store.write b.shard b.items = .ok t ∧ s' = .paged { r with store := t } := by
  rw [AnyStore.put] at h
  split at h
  · cases (Prod.mk.inj h).1
  · rename_i t ht
    exact ⟨t, ht, (Prod.mk.inj h).2.symm⟩

end PagedStore

/-- A paged store takes a batch that its table takes. -/
lemma AnyStore.put_paged {t t' : PagedStore} {batch : Nat} {shard : Shard}
    {items : List (Record × Int)} (h : t.write shard items = .ok t') :
    (paged ⟨t, batch⟩).put shard items = (none, paged ⟨t', batch⟩) := by
  rw [put, h]

/-- A log takes a batch by adding its records at the end. -/
lemma RecordLog.entries_addAll {l l' : RecordLog} {shard : Shard} {items : List (Record × Int)}
    (h : l.addAll shard items = (none, l')) :
    l'.entries = l.entries ++ Batch.filed ⟨shard, items⟩ := by
  induction items generalizing l with
  | nil =>
    obtain ⟨-, rfl⟩ := Prod.mk.inj h
    exact (List.append_nil _).symm
  | cons item rest ih =>
    obtain ⟨record, hour⟩ := item
    rw [addAll] at h
    split at h
    · cases (Prod.mk.inj h).1
    · rename_i l₁ hl₁
      have added : l₁.entries = l.entries ++ [⟨shard, record, hour⟩] := by
        simp only [add, bind, Except.bind] at hl₁
        split at hl₁
        · cases hl₁
        · rw [← Except.ok.inj hl₁]
      rw [ih h, added, List.append_assoc]
      rfl

namespace AnyStore

/-- What is in a store, as it was filed. -/
def filed : AnyStore → List Filed
  | .log l => l.entries
  | .paged r => r.store.rows.map StoredRow.filed

/-- Whether the rows of a store, if it has rows, are in order. -/
def IsSound : AnyStore → Prop
  | .log _ => True
  | .paged r => r.store.IsSound

variable {s s' : AnyStore} {b : Batch} {f : Filed}

lemma filed_put_log {l : RecordLog} (h : (log l).put b.shard b.items = (none, s')) :
    s'.filed = l.entries ++ b.filed := by
  obtain ⟨houtcome, rfl⟩ := Prod.mk.inj h
  exact RecordLog.entries_addAll (Prod.ext houtcome rfl)

lemma IsSound.put (hs : s.IsSound) (h : s.put b.shard b.items = (none, s')) : s'.IsSound := by
  cases s with
  | log l =>
    obtain ⟨-, rfl⟩ := Prod.mk.inj h
    trivial
  | paged r =>
    obtain ⟨t, ht, rfl⟩ := PagedStore.put_eq_ok h
    exact (PagedStore.IsSound.write hs ht).1

/-- What is in a store stays until its key is written again. -/
lemma mem_filed_put (hf : f ∈ s.filed) (h : s.put b.shard b.items = (none, s'))
    (hslot : ∀ g ∈ b.filed, g.slot ≠ f.slot) : f ∈ s'.filed := by
  cases s with
  | log l =>
    rw [filed_put_log h]
    exact List.mem_append_left _ hf
  | paged r =>
    obtain ⟨t, ht, rfl⟩ := PagedStore.put_eq_ok h
    obtain ⟨row, hrow, rfl⟩ := List.mem_map.1 hf
    rw [PagedStore.write_eq_ok ht]
    exact List.mem_map_of_mem (PagedStore.mem_foldl_put hrow fun item hitem =>
      hslot _ (List.mem_map_of_mem hitem))

/-- The last record of a batch for its key is in the store afterwards. -/
lemma mem_filed_of_put (h : s.put b.shard b.items = (none, s')) (hlatest : f.IsLatest b.filed) :
    f ∈ s'.filed := by
  cases s with
  | log l =>
    rw [filed_put_log h]
    exact List.mem_append_right _ hlatest.mem
  | paged r =>
    obtain ⟨t, ht, rfl⟩ := PagedStore.put_eq_ok h
    rw [PagedStore.write_eq_ok ht]
    exact List.mem_map.2 (PagedStore.exists_row_foldl_put hlatest)

namespace Takes

variable {l l' : List Batch}

lemma append {s'' : AnyStore} (h : s.Takes l s') (h' : s'.Takes l' s'') : s.Takes (l ++ l') s'' := by
  induction h with
  | nil => exact h'
  | cons hput _ ih => exact .cons hput (ih h')

lemma isSound (h : s.Takes l s') (hs : s.IsSound) : s'.IsSound := by
  induction h with
  | nil => exact hs
  | cons hput _ ih => exact ih (hs.put hput)

lemma mem_filed (h : s.Takes l s') (hf : f ∈ s.filed)
    (hslot : ∀ g ∈ Batch.filedAll l, g.slot ≠ f.slot) : f ∈ s'.filed := by
  induction h with
  | nil => exact hf
  | cons hput _ ih =>
    refine ih (mem_filed_put hf hput fun g hg => hslot g ?_) fun g hg => hslot g ?_
    · exact List.mem_append_left _ hg
    · exact List.mem_append_right _ hg

/-- The last record of some batches for its key is in the store afterwards. -/
lemma mem_filed_of_isLatest (h : s.Takes l s') (hlatest : f.IsLatest (Batch.filedAll l)) :
    f ∈ s'.filed := by
  induction h with
  | nil => cases hlatest.mem
  | cons hput hrest ih =>
    rcases Filed.isLatest_append_iff.1 hlatest with hlater | ⟨hother, hfirst⟩
    · exact ih hlater
    · exact hrest.mem_filed (mem_filed_of_put hput hfirst) hother

/-- A log stays a log. -/
lemma exists_log {log : RecordLog} (h : (AnyStore.log log).Takes l s') :
    ∃ log', s' = .log log' := by
  generalize hs : AnyStore.log log = s at h
  induction h generalizing log with
  | nil => exact ⟨log, hs.symm⟩
  | cons hput _ ih =>
    subst hs
    obtain ⟨-, rfl⟩ := Prod.mk.inj hput
    exact ih rfl

/-- A paged store stays one. -/
lemma exists_paged {r : PagedReader} (h : (AnyStore.paged r).Takes l s') :
    ∃ r', s' = .paged r' := by
  generalize hs : AnyStore.paged r = s at h
  induction h generalizing r with
  | nil => exact ⟨r, hs.symm⟩
  | cons hput _ ih =>
    subst hs
    obtain ⟨t, -, rfl⟩ := PagedStore.put_eq_ok hput
    exact ih rfl

end Takes

end AnyStore

/-! ## A scan that does not miss a row -/

/-- A row beyond a number is in the page that is fetched from there, or a page is fetched after
this one and the row lies beyond where that begins. -/
lemma Cursor.mem_page_or_resumeAfter {c : Cursor} {t : PagedStore} {number : Nat} {row : StoredRow}
    (ht : t.IsSound) (hbatch : 0 < c.batch) (hrow : row ∈ t.beyond c.shard c.hour number) :
    row ∈ t.page c.shard c.hour number c.batch ∨
      ∃ next, c.resumeAfter (t.page c.shard c.hour number c.batch) = some next ∧
        next < row.number := by
  obtain ⟨later, hbeyond, hshort⟩ := t.exists_page_append c.shard c.hour number c.batch
  have ascending := ht.ascending_beyond c.shard c.hour number
  rw [hbeyond] at hrow ascending
  cases hresume : c.resumeAfter (t.page c.shard c.hour number c.batch) with
  | none =>
    rw [hshort (length_ne_of_resumeAfter_eq_none hbatch hresume), List.append_nil] at hrow
    exact Or.inl hrow
  | some next =>
    obtain ⟨last, hlast, rfl⟩ := exists_of_resumeAfter_eq_some hresume
    rcases List.mem_append.1 hrow with hin | hlater
    · exact Or.inl hin
    · exact Or.inr ⟨last.number, rfl,
        (List.pairwise_append.1 ascending).2.2 last (List.mem_of_getLast? hlast) row hlater⟩

namespace Scan

/-- A scan for an hour before its first page. -/
def ofHour (t : PagedStore) (shard : Shard) (hour : Int) (batch : Nat) : Scan :=
  { store := t, cursor := .start shard (some hour) batch, seen := t }

/-- The batches that are written while a scan is in progress. -/
def batches (turns : List Turn) : List Batch :=
  turns.filterMap fun
    | .write shard items => some ⟨shard, items⟩
    | .read => none

/-- A scan for the hour of a row has the record of the row, or the row lies ahead of it. -/
structure Awaits (s : Scan) (row : StoredRow) : Prop where
  store : s.store.IsSound
  stored : row ∈ s.store.rows
  ofShard : s.cursor.shard = row.filed.shard
  ofHour : s.cursor.hour = some row.filed.hour
  batch_pos : 0 < s.cursor.batch
  coming : row.filed.record ∈ s.emitted ++ s.cursor.buffer ∨
    ∃ number, s.cursor.after = some number ∧ number < row.number
  drained : s.ended = true → s.cursor.after = none ∧ s.cursor.buffer = []

variable {s : Scan} {row : StoredRow}

lemma awaits_ofHour {t : PagedStore} (ht : t.IsSound) (hrow : row ∈ t.rows) (batch : Nat) :
    (ofHour t row.filed.shard row.filed.hour batch).Awaits row where
  store := ht
  stored := hrow
  ofShard := rfl
  ofHour := rfl
  batch_pos := Nat.le_max_right _ _
  coming := Or.inr ⟨0, rfl, ht.pos row hrow⟩
  drained hended := by cases hended

namespace Awaits

/-- A write for other keys leaves the row where it is. -/
lemma write (h : s.Awaits row) {shard : Shard} {items : List (Record × Int)}
    (hslot : ∀ g ∈ Batch.filed ⟨shard, items⟩, g.slot ≠ row.filed.slot) :
    (s.turn (.write shard items)).Awaits row := by
  rw [turn]
  split
  · exact h
  · rename_i t ht
    have stored : row ∈ t.rows := by
      rw [PagedStore.write_eq_ok ht]
      exact PagedStore.mem_foldl_put h.stored fun item hitem =>
        hslot _ (List.mem_map_of_mem hitem)
    exact { h with
      store := (h.store.write ht).1
      stored := stored }

/-- The row is in the page that is fetched, or it lies ahead still. -/
lemma fetch (h : s.Awaits row) : s.fetch.Awaits row := by
  rw [Scan.fetch]
  split
  · exact h
  · rename_i page hpage
    obtain ⟨hbuffer, number, hafter, rfl⟩ := Cursor.fetch?_eq_some hpage
    refine { h with
      coming := ?_
      drained := fun hended => by cases hafter.symm.trans (h.drained hended).1 }
    rcases h.coming with hcoming | ⟨number', hafter', hlt⟩
    · rw [hbuffer, List.append_nil] at hcoming
      exact Or.inl (List.mem_append_left _ hcoming)
    · obtain rfl : number' = number := Option.some.inj (hafter'.symm.trans hafter)
      have ahead : row ∈ s.store.beyond s.cursor.shard s.cursor.hour number' := by
        refine PagedStore.mem_beyond.2 ⟨?_, hlt⟩
        rw [PagedStore.ofShard, List.mem_filter, h.ofShard, h.ofHour]
        simp [h.stored]
      rcases Cursor.mem_page_or_resumeAfter h.store h.batch_pos ahead with hin | hlater
      · exact Or.inl (List.mem_append_right _ (List.mem_map_of_mem hin))
      · exact Or.inr hlater

lemma give (h : s.Awaits row) (hempty : s.cursor.buffer = [] → s.cursor.after = none) :
    s.give.Awaits row where
  store := h.store
  stored := h.stored
  ofShard := h.ofShard
  ofHour := h.ofHour
  batch_pos := h.batch_pos
  coming := by
    rw [emitted_append_buffer_give]
    exact h.coming
  drained := drained_give hempty

lemma read (h : s.Awaits row) : s.read.Awaits row := by
  rw [read_eq]
  exact h.fetch.give after_fetch_eq_none

/-- The row stays ahead as long as its key is not written again. -/
lemma run (h : s.Awaits row) {turns : List Turn}
    (hslot : ∀ g ∈ Batch.filedAll (batches turns), g.slot ≠ row.filed.slot) :
    (s.run turns).Awaits row := by
  induction turns generalizing s with
  | nil => exact h
  | cons turn rest ih =>
    cases turn with
    | read => exact ih h.read hslot
    | write shard items =>
      refine ih (h.write fun g hg => hslot g ?_) fun g hg => hslot g ?_
      · exact List.mem_append_left _ hg
      · exact List.mem_append_right _ hg

/-- A scan that has come to its end has the record of the row. -/
lemma mem_emitted (h : s.Awaits row) (hended : s.ended = true) :
    row.filed.record ∈ s.emitted := by
  obtain ⟨hafter, hbuffer⟩ := h.drained hended
  rcases h.coming with hcoming | ⟨number, hnumber, -⟩
  · rwa [hbuffer, List.append_nil] at hcoming
  · cases hnumber.symm.trans hafter

end Awaits

end Scan

/-! ## The streams of a store -/

/-- The streams that a store can hand out for an hour of a shard while it takes some batches. -/
inductive HandsOut (meanwhile : List Batch) (shard : Shard) (hour : Int) :
    AnyStore → RecordStream → Prop
  /-- A log hands out what it has when the stream is opened. -/
  | log {l : RecordLog} {s : AnyStore} {before : List Batch} : before <+: meanwhile →
      AnyStore.Takes (.log l) before s →
      HandsOut meanwhile shard hour (.log l) (ColumnStore.updatedIn s shard hour)
  /-- A paged store hands out what a scan comes upon. -/
  | paged {r : PagedReader} {turns : List Scan.Turn} : Scan.batches turns <+: meanwhile →
      ((Scan.ofHour r.store shard hour r.batch).run turns).ended = true →
      HandsOut meanwhile shard hour (.paged r)
        { records := ((Scan.ofHour r.store shard hour r.batch).run turns).emitted }
  /-- Any stream may break off. -/
  | broken {s : AnyStore} {stream : RecordStream} (n : Nat) (cause : Failure) :
      HandsOut meanwhile shard hour s stream →
      HandsOut meanwhile shard hour s (stream.breakAfter n cause)

namespace HandsOut

variable {meanwhile : List Batch} {s : AnyStore} {stream : RecordStream} {f : Filed}

/-- A stream that does not break off has each record of the hour that is in the store, if the key of
the record is not written again. -/
theorem mem_records (h : HandsOut meanwhile f.shard f.hour s stream) (hs : s.IsSound)
    (hf : f ∈ s.filed) (hslot : ∀ g ∈ Batch.filedAll meanwhile, g.slot ≠ f.slot)
    (hwhole : stream.failure = none) : f.record ∈ stream.records := by
  have early {before : List Batch} (hbefore : before <+: meanwhile) :
      ∀ g ∈ Batch.filedAll before, g.slot ≠ f.slot := by
    obtain ⟨rest, rfl⟩ := hbefore
    intro g hg
    rw [Batch.filedAll_append] at hslot
    exact hslot g (List.mem_append_left _ hg)
  cases h with
  | @log l s' before hbefore htakes =>
    have kept := htakes.mem_filed hf (early hbefore)
    obtain ⟨l', rfl⟩ := htakes.exists_log
    refine List.mem_map.2 ⟨f, List.mem_filter.2 ⟨List.mem_filter.2 ⟨kept, ?_⟩, ?_⟩, rfl⟩
    · exact decide_eq_true rfl
    · exact decide_eq_true rfl
  | @paged r turns hturns hended =>
    obtain ⟨row, hrow, rfl⟩ := List.mem_map.1 hf
    exact ((Scan.awaits_ofHour hs hrow r.batch).run (early hturns)).mem_emitted hended
  | broken n cause hstream => exact absurd hwhole (failure_breakAfter_ne_none _ n cause)

end HandsOut

/-! ## The streams of a store that is not written -/

namespace Scan

lemma batches_replicate_read (n : Nat) : batches (List.replicate n .read) = [] := by
  refine List.filterMap_eq_nil_iff.2 fun turn hturn => ?_
  rw [List.eq_of_mem_replicate hturn]

end Scan

/-- What a paged store has for an hour is what a scan comes upon that no write interrupts. -/
lemma PagedReader.exists_run_eq_readAll {r : PagedReader} (hr : r.store.IsSound) (shard : Shard)
    (hour : Int) :
    ∃ m, let s := (Scan.ofHour r.store shard hour r.batch).run (List.replicate m .read)
      s.ended = true ∧ s.emitted = r.readAll shard (some hour) := by
  obtain ⟨m, hended, hemitted⟩ := Scan.exists_run_eq_ahead (s := Scan.ofHour r.store shard hour
    r.batch) hr (Nat.le_max_right _ _)
  refine ⟨m, hended, hemitted.trans ?_⟩
  rw [readAll_eq hr]
  exact Cursor.ahead_start hr _ _ _

/-- The streams that a store has of itself are among those that it can hand out, whether they break
off or not. -/
theorem handsOut_updatedIn {s : AnyStore} (hs : s.IsSound)
    (fault : Option Int → Option (Nat × Failure)) (shard : Shard) (hour : Int) :
    HandsOut [] shard hour s
      (ColumnStore.updatedIn (⟨s, fault⟩ : Interrupted AnyStore) shard hour) := by
  have whole : HandsOut [] shard hour s (ColumnStore.updatedIn s shard hour) := by
    cases s with
    | log l => exact .log (List.prefix_refl _) (.nil _)
    | paged r =>
      obtain ⟨m, hended, hemitted⟩ := PagedReader.exists_run_eq_readAll hs shard hour
      have alone : Scan.batches (List.replicate m .read) <+: [] :=
        Scan.batches_replicate_read m ▸ List.prefix_refl _
      have read := HandsOut.paged alone hended
      rwa [hemitted] at read
  show HandsOut [] shard hour s ((fault hour).elim (ColumnStore.updatedIn s shard hour) _)
  cases fault hour with
  | none => exact whole
  | some f => exact .broken f.1 f.2 whole

end ShardIndex
