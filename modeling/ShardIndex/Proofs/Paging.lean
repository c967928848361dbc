import ShardIndex.Proofs.Provenance

/-!
# Paging is invisible

A paged store that has taken batches, and refused those with a reversed window, has one row for each
key that was written, in the order of the keys' last writes (`PagedStore.filed_writeAll`).  A scan
fetches these rows page by page, and what it gives out can be said without pages: the rows of its
shard, one after another, and then the end (`OpenStream.exists_take_scan`).  The scans for all hours
share the rows among them.  The main result is `PagedReader.readAll_writeAll`.
-/

namespace ShardIndex

/-! ## Batches that are refused -/

/-- Whether no record of a batch has its window reversed. -/
def Batch.InOrder (b : Batch) : Prop := ∀ item ∈ b.items, item.1.startTime ≤ item.1.endTime

instance : DecidablePred Batch.InOrder := fun b =>
  inferInstanceAs (Decidable (∀ item ∈ b.items, _))

/-- If each of some checks ends well, they do together. -/
lemma forM_eq_ok_of_forall {α : Type} {f : α → Except Failure Unit} {l : List α}
    (h : ∀ a ∈ l, f a = .ok ()) : l.forM f = .ok () := by
  induction l with
  | nil => rfl
  | cons a rest ih =>
    obtain ⟨ha, hrest⟩ := List.forall_mem_cons.1 h
    show (f a >>= fun _ => rest.forM f) = .ok ()
    rw [ha]
    exact ih hrest

namespace PagedStore

/-- A store after some batches.  One that is refused changes nothing. -/
def writeAll (t : PagedStore) (batches : List Batch) : PagedStore :=
  batches.foldl (fun t b => (t.write b.shard b.items).toOption.getD t) t

variable {t : PagedStore} {b : Batch}

lemma writeAll_concat (t : PagedStore) (batches : List Batch) (b : Batch) :
    t.writeAll (batches ++ [b]) =
      ((t.writeAll batches).write b.shard b.items).toOption.getD (t.writeAll batches) :=
  List.foldl_append

/-- A batch is written as a whole if all its windows are in order. -/
lemma write_of_inOrder (h : b.InOrder) (t : PagedStore) :
    t.write b.shard b.items =
      .ok (b.items.foldl (fun t item => t.put ⟨b.shard, item.1, item.2⟩) t) := by
  have checked : b.items.forM (fun item => item.1.validate) = .ok () :=
    forM_eq_ok_of_forall fun item hitem => Record.validate_eq_ok_iff.2 (h item hitem)
  rw [write, checked]
  rfl

/-- A batch with a reversed window is refused. -/
lemma write_of_not_inOrder (h : ¬ b.InOrder) (t : PagedStore) :
    ∃ e, t.write b.shard b.items = .error e := by
  cases hchecked : b.items.forM (fun item => item.1.validate) with
  | error e =>
    refine ⟨e, ?_⟩
    rw [write, hchecked]
    rfl
  | ok u =>
    refine absurd (fun item hitem => ?_) h
    exact Record.validate_eq_ok_iff.1 (forM_eq_ok hchecked item hitem)

lemma isOk_write_iff (t : PagedStore) (b : Batch) :
    (t.write b.shard b.items).isOk = true ↔ b.InOrder := by
  by_cases h : b.InOrder
  · rw [write_of_inOrder h]
    exact iff_of_true rfl h
  · obtain ⟨e, he⟩ := write_of_not_inOrder h t
    rw [he]
    exact iff_of_false Bool.false_ne_true h

lemma writeAll_concat_of_not_inOrder (h : ¬ b.InOrder) (t : PagedStore) (batches : List Batch) :
    t.writeAll (batches ++ [b]) = t.writeAll batches := by
  obtain ⟨e, he⟩ := write_of_not_inOrder h (t.writeAll batches)
  rw [writeAll_concat, he]
  rfl

/-- A store has a row for each key that was written, with its last record, and its rows come in the
order of the keys' last writes. -/
lemma filed_writeAll (batches : List Batch) :
    (writeAll {} batches).IsSound ∧ (writeAll {} batches).rows.map StoredRow.filed =
      Filed.latest (Batch.filedAll (batches.filter fun b => b.InOrder)) := by
  induction batches using List.reverseRecOn with
  | nil => exact ⟨isSound_empty, rfl⟩
  | append_singleton batches b ih =>
    obtain ⟨sound, filed⟩ := ih
    by_cases hb : b.InOrder
    · have written := write_of_inOrder hb (writeAll {} batches)
      have whole : Batch.filedAll ((batches ++ [b]).filter fun b => b.InOrder) =
          Batch.filedAll (batches.filter fun b => b.InOrder) ++ b.filed := by
        rw [List.filter_append, List.filter_cons_of_pos (by simpa using hb), Batch.filedAll_append]
        exact congrArg (_ ++ ·) (List.append_nil _)
      rw [whole, writeAll_concat, written]
      exact ⟨(sound.write written).1, AnyStore.filed_put_rows b.shard b.items filed⟩
    · rw [writeAll_concat_of_not_inOrder hb, List.filter_append,
        List.filter_cons_of_neg (by simpa using hb), List.filter_nil, List.append_nil]
      exact ⟨sound, filed⟩

/-- What a store has of a shard, in the order of its rows. -/
lemma filed_ofShard (t : PagedStore) (shard : Shard) (hour : Option Int) :
    (t.ofShard shard hour).map StoredRow.filed = (t.rows.map StoredRow.filed).filter fun f =>
      f.shard = shard ∧ (hour = none ∨ hour = some f.hour) := by
  rw [ofShard, List.filter_map]
  rfl

end PagedStore

/-! ## The order of last writes -/

namespace Filed

/-- Whether the last write for the key of a record comes before that for the key of another: from
some moment on the first key is not written, and the second one is. -/
def WrittenBefore (history : List Filed) (f g : Filed) : Prop :=
  ∃ earlier later, history = earlier ++ later ∧ (∀ h ∈ later, h.slot ≠ f.slot) ∧
    ∃ h ∈ later, h.slot = g.slot

lemma WrittenBefore.cons {history : List Filed} {f g : Filed} (h : WrittenBefore history f g)
    (first : Filed) : WrittenBefore (first :: history) f g := by
  obtain ⟨earlier, later, rfl, hf, hg⟩ := h
  exact ⟨first :: earlier, later, rfl, hf, hg⟩

lemma pairwise_latest (history : List Filed) :
    (latest history).Pairwise (WrittenBefore history) := by
  induction history with
  | nil => exact List.Pairwise.nil
  | cons f rest ih =>
    have others : (latest rest).Pairwise (WrittenBefore (f :: rest)) := ih.imp fun h => h.cons f
    rw [latest]
    split
    · exact others
    · rename_i hlast
      refine List.pairwise_cons.2 ⟨fun g hg => ⟨[f], rest, rfl, fun h hh hslot => ?_, ?_⟩, others⟩
      · exact hlast ⟨h, hh, hslot⟩
      · exact ⟨g, (latest_sublist rest).subset hg, rfl⟩

/-- Records that are taken hour by hour are all taken. -/
lemma flatMap_hours_perm {l : List Filed} {hours : List Int} (hnodup : hours.Nodup)
    (hcover : ∀ f ∈ l, f.hour ∈ hours) :
    (hours.flatMap fun hour => l.filter fun f => f.hour = hour).Perm l := by
  induction hours generalizing l with
  | nil =>
    obtain rfl := List.eq_nil_iff_forall_not_mem.2 fun f hf => List.not_mem_nil (hcover f hf)
    exact List.Perm.nil
  | cons hour rest ih =>
    obtain ⟨hnew, hnodup⟩ := List.nodup_cons.1 hnodup
    -- the other hours have their records among those that are not of the first
    have later := ih (l := l.filter fun f => !decide (f.hour = hour)) hnodup fun f hf => by
      obtain ⟨hf, hne⟩ := List.mem_filter.1 hf
      exact (List.mem_cons.1 (hcover f hf)).resolve_left (by simpa using hne)
    have same : ∀ other ∈ rest, ((l.filter fun f => !decide (f.hour = hour)).filter fun f =>
        f.hour = other) = l.filter fun f => f.hour = other := by
      intro other hother
      have hne : other ≠ hour := fun heq => hnew (heq ▸ hother)
      rw [List.filter_filter]
      refine List.filter_congr fun f _ => ?_
      by_cases hin : f.hour = other
      · simp [hin, hne]
      · simp [hin]
    rw [List.flatMap_congr same] at later
    rw [List.flatMap_cons]
    exact (later.append_left _).trans (List.filter_append_perm _ l)

end Filed

/-! ## Streams without pages -/

namespace OpenStream

/-- The next item of a scan that does not break off. -/
lemma next_scan (c : Cursor) (r : PagedReader) :
    ({ supply := .scan c } : OpenStream).next (.paged r) =
      ((c.next r.store).1.map .ok,
        { supply := .scan (c.next r.store).2, ended := (c.next r.store).1.isNone }) := by
  rcases hnext : c.next r.store with ⟨_ | record, c'⟩ <;> simp [next, poll, hnext]

/-- A scan that no write interrupts has given out what lies ahead of it, as far as it was asked for,
and has ended once it was asked for more. -/
lemma exists_take_scan {r : PagedReader} {c : Cursor} (hr : r.store.IsSound) (hbatch : 0 < c.batch)
    (n : Nat) :
    ∃ c', ({ supply := .scan c } : OpenStream).take (.paged r) n =
      (((c.ahead r.store).take n).map .ok,
        { supply := .scan c', ended := decide ((c.ahead r.store).length < n) }) := by
  induction n generalizing c with
  | zero => exact ⟨c, by simp [take]⟩
  | succ n ih =>
    rcases hnext : c.next r.store with ⟨_ | record, c₁⟩
    · obtain ⟨hahead, hnil, -⟩ := Cursor.ahead_of_next hr hbatch hnext
      rw [hnil rfl] at hahead
      refine ⟨c₁, ?_⟩
      rw [take, next_scan, hnext, hahead]
      simp
    · obtain ⟨hahead, -, hbatch'⟩ := Cursor.ahead_of_next hr hbatch hnext
      obtain ⟨c', later⟩ := ih (c := c₁) hbatch'
      refine ⟨c', ?_⟩
      rw [take, next_scan, hnext, hahead]
      simp [later]

end OpenStream

namespace PagedReader

/-- A stream of a store gives out what the store reads of its shard, and then ends. -/
lemma take_start {r : PagedReader} (hr : r.store.IsSound) (shard : Shard) (hour : Option Int)
    (n : Nat) :
    let stream := (OpenStream.start { inner := .paged r } shard hour).take (.paged r) n
    stream.1 = ((r.readAll shard hour).take n).map .ok ∧
      (stream.2.ended = true ↔ (r.readAll shard hour).length < n) := by
  intro stream
  obtain ⟨c', htake⟩ := OpenStream.exists_take_scan (r := r) (c := .start shard hour r.batch) hr
    (Nat.le_max_right _ _) n
  have hstream : stream = _ := htake
  rw [Cursor.ahead_start hr, ← readAll_eq hr] at hstream
  rw [hstream]
  exact ⟨rfl, decide_eq_true_iff⟩

/-- **Paging is invisible.**  A new paged store takes batches, to any shards, and refuses those that
have a reversed window, which then change nothing.  After that its scans are those of a list,
whatever their page size: the records that are the last for the keys of the shard, each key once, in
the order of the keys' last writes.  A stream gives them out one by one and ends when it is asked
for more.  The scan for an hour has those of them that were written in the hour, so the scans for
all hours together have each of them once, and the count of the shard is their number. -/
theorem readAll_writeAll (batches : List Batch) (batch : Nat) (shard : Shard) :
    let t := PagedStore.writeAll {} batches
    let r : PagedReader := ⟨t, batch⟩
    let history := Batch.filedAll (batches.filter fun b => b.InOrder)
    let stored := (Filed.latest history).filter fun f => f.shard = shard
    (∀ b : Batch, ((t.write b.shard b.items).isOk = true ↔ b.InOrder) ∧
        (¬ b.InOrder → PagedStore.writeAll {} (batches ++ [b]) = t)) ∧
      (∀ hour n,
        let stream := (OpenStream.start { inner := .paged r } shard hour).take (.paged r) n
        stream.1 = ((r.readAll shard hour).take n).map .ok ∧
          (stream.2.ended = true ↔ (r.readAll shard hour).length < n)) ∧
      r.readAll shard none = stored.map Filed.record ∧
      (∀ hour, r.readAll shard (some hour) =
        (stored.filter fun f => f.hour = hour).map Filed.record) ∧
      (stored.map fun f => f.record.key).Nodup ∧
      (∀ f, f ∈ stored ↔ f.IsLatest history ∧ f.shard = shard) ∧
      stored.Pairwise (Filed.WrittenBefore history) ∧
      (∀ hours : List Int, hours.Nodup → (∀ f ∈ stored, f.hour ∈ hours) →
        (hours.flatMap fun hour => r.readAll shard (some hour)).Perm (r.readAll shard none)) ∧
      t.size shard = (r.readAll shard none).length := by
  intro t r history stored
  obtain ⟨sound, filed⟩ : t.IsSound ∧ t.rows.map StoredRow.filed = Filed.latest history :=
    PagedStore.filed_writeAll batches
  have read (hour : Option Int) : r.readAll shard hour =
      ((Filed.latest history).filter fun f =>
        f.shard = shard ∧ (hour = none ∨ hour = some f.hour)).map Filed.record := by
    rw [readAll_eq (r := r) sound, ← filed, ← PagedStore.filed_ofShard, List.map_map]
    rfl
  have full : r.readAll shard none = stored.map Filed.record := by
    rw [read]
    simp [stored]
  have bucket (hour : Int) : r.readAll shard (some hour) =
      (stored.filter fun f => f.hour = hour).map Filed.record := by
    rw [read, List.filter_filter]
    simp [Bool.and_comm, eq_comm]
  refine ⟨fun b => ⟨t.isOk_write_iff b, fun hb => PagedStore.writeAll_concat_of_not_inOrder hb _ _⟩,
    fun hour n => take_start (r := r) sound shard hour n, full, bucket,
    Filed.nodup_keys_latest (fun f hf => of_decide_eq_true hf) history, fun f => ?_,
    (Filed.pairwise_latest history).filter _, fun hours hnodup hcover => ?_, ?_⟩
  · rw [List.mem_filter, Filed.mem_latest, decide_eq_true_eq]
  · have shared := (Filed.flatMap_hours_perm hnodup hcover).map Filed.record
    rw [List.map_flatMap] at shared
    rwa [full, List.flatMap_congr fun hour _ => bucket hour]
  · show (t.ofShard shard none).length = _
    rw [readAll_eq (r := r) sound, List.length_map]

/-- The first of three keys is written again, and comes last then, with pages of any size. -/
example :
    let shard : Shard := ⟨"metrics", 0⟩
    let t := PagedStore.writeAll {}
      [⟨shard, [(⟨[170], 1, 2⟩, 5), (⟨[171], 3, 4⟩, 5), (⟨[172], 5, 6⟩, 5)]⟩,
        ⟨shard, [(⟨[171], 3, 9⟩, 6), (⟨[173], 8, 7⟩, 6)]⟩, ⟨shard, [(⟨[170], 1, 7⟩, 6)]⟩]
    ∀ batch ∈ [0, 1, 2, 3, 4, 9223372036854775808],
      (⟨t, batch⟩ : PagedReader).readAll shard none =
        [⟨[171], 3, 4⟩, ⟨[172], 5, 6⟩, ⟨[170], 1, 7⟩] := by
  decide +kernel

end PagedReader

end ShardIndex
