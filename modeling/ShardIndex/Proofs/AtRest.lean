import ShardIndex.Proofs.Scan

/-!
# Scans at rest

While nothing is written, a scan has certain records ahead of it (`Cursor.ahead`): to fetch a page
changes nothing about them, and each record that it gives out is the first of them.  So a scan that
no write interrupts gives out the rows of its shard, in their order (`PagedReader.readAll_eq`).
-/

namespace ShardIndex

namespace Cursor

/-- The records that a cursor has before it, if nothing is written. -/
def ahead (c : Cursor) (t : PagedStore) : List Record :=
  c.buffer ++ c.after.elim [] fun number =>
    (t.beyond c.shard c.hour number).map fun row => row.filed.record

variable {c c' : Cursor} {t : PagedStore} {page : List StoredRow}

/-- To fetch a page changes nothing about what lies ahead. -/
lemma ahead_refill (ht : t.IsSound) (hbatch : 0 < c.batch) (h : c.fetch? t = some page) :
    (c.refill page).ahead t = c.ahead t := by
  obtain ⟨hbuffer, number, hafter, rfl⟩ := fetch?_eq_some h
  obtain ⟨later, hbeyond, hshort⟩ := t.exists_page_append c.shard c.hour number c.batch
  have before : c.ahead t = (t.beyond c.shard c.hour number).map fun row => row.filed.record := by
    rw [ahead, hbuffer, hafter]
    rfl
  rw [before, hbeyond, List.map_append]
  show _ ++ (c.resumeAfter _).elim [] _ = _
  congr 1
  cases hresume : c.resumeAfter (t.page c.shard c.hour number c.batch) with
  | none =>
    rw [hshort (length_ne_of_resumeAfter_eq_none hbatch hresume)]
    rfl
  | some next =>
    obtain ⟨last, hlast, rfl⟩ := exists_of_resumeAfter_eq_some hresume
    exact congrArg _ (ht.beyond_of_getLast? hbeyond hlast)

lemma ahead_of_next {o : Option Record} (ht : t.IsSound) (hbatch : 0 < c.batch)
    (h : c.next t = (o, c')) :
    c.ahead t = o.toList ++ c'.ahead t ∧ (o = none → c'.ahead t = []) ∧ 0 < c'.batch := by
  rw [next_eq] at h
  generalize hd : (c.fetch? t).elim c c.refill = d at h
  -- the cursor has a page by now, unless there is none left
  have same : d.ahead t = c.ahead t ∧ d.batch = c.batch ∧ (d.buffer = [] → d.after = none) := by
    cases hfetch : c.fetch? t with
    | none =>
      rw [← hd, hfetch]
      exact ⟨rfl, rfl, fetch?_eq_none hfetch⟩
    | some page =>
      rw [← hd, hfetch]
      refine ⟨ahead_refill ht hbatch hfetch, rfl, fun hnil => ?_⟩
      rw [List.map_eq_nil_iff.1 hnil]
      exact c.resumeAfter_nil
  obtain ⟨hahead, hd', hdone⟩ := same
  obtain ⟨rfl, rfl⟩ := Prod.mk.inj h
  refine ⟨?_, fun hnone => ?_, hd' ▸ hbatch⟩
  · rw [← hahead]
    show d.buffer ++ _ = d.buffer.head?.toList ++ (d.buffer.tail ++ _)
    cases d.buffer <;> rfl
  · have hbuffer := List.head?_eq_none_iff.1 hnone
    show d.buffer.tail ++ d.after.elim [] _ = []
    rw [hdone hbuffer, hbuffer]
    rfl

lemma take_eq (ht : t.IsSound) (hbatch : 0 < c.batch) (n : Nat) :
    (c.take t n).1 = (c.ahead t).take n := by
  induction n generalizing c with
  | zero => exact List.take_zero.symm
  | succ n ih =>
    rcases hnext : c.next t with ⟨_ | r, c'⟩
    · obtain ⟨hahead, hnil, -⟩ := ahead_of_next ht hbatch hnext
      rw [take, hnext, hahead, hnil rfl]
      rfl
    · obtain ⟨hahead, -, hbatch'⟩ := ahead_of_next ht hbatch hnext
      rw [take, hnext, hahead]
      exact congrArg (r :: ·) (ih hbatch')

lemma ahead_start (ht : t.IsSound) (shard : Shard) (hour : Option Int) (batch : Nat) :
    (start shard hour batch).ahead t =
      (t.ofShard shard hour).map fun row => row.filed.record := by
  have all : t.beyond shard hour 0 = t.ofShard shard hour :=
    List.filter_eq_self.2 fun row hrow =>
      decide_eq_true (ht.pos row (List.mem_of_mem_filter hrow))
  rw [← all]
  rfl

end Cursor

namespace Scan

variable {s : Scan} {c : Cursor} {o : Option Record}

lemma read_of_next (h : s.cursor.next s.store = (o, c)) :
    s.read.cursor = c ∧ s.read.emitted = s.emitted ++ o.toList ∧ s.read.ended = o.isNone := by
  rw [read, h]
  exact ⟨rfl, rfl, rfl⟩

/-- A scan that no write interrupts gives out what lies ahead of it and comes to its end. -/
lemma exists_run_eq_ahead (hs : s.store.IsSound) (hbatch : 0 < s.cursor.batch) :
    ∃ n, (s.run (List.replicate n .read)).ended = true ∧
      (s.run (List.replicate n .read)).emitted = s.emitted ++ s.cursor.ahead s.store := by
  generalize hahead : s.cursor.ahead s.store = ahead
  induction ahead generalizing s with
  | nil =>
    rcases hnext : s.cursor.next s.store with ⟨_ | r, c⟩
    · obtain ⟨-, emitted, ended⟩ := read_of_next hnext
      exact ⟨1, ended, emitted⟩
    · obtain ⟨hfirst, -, -⟩ := Cursor.ahead_of_next hs hbatch hnext
      cases hahead.symm.trans hfirst
  | cons first rest ih =>
    rcases hnext : s.cursor.next s.store with ⟨_ | r, c⟩
    · obtain ⟨hfirst, hnil, -⟩ := Cursor.ahead_of_next hs hbatch hnext
      rw [hnil rfl] at hfirst
      cases hahead.symm.trans hfirst
    · obtain ⟨hfirst, -, hbatch'⟩ := Cursor.ahead_of_next hs hbatch hnext
      obtain ⟨rfl, hrest⟩ := List.cons.inj (hahead.symm.trans hfirst)
      obtain ⟨cursor, emitted, -⟩ := read_of_next hnext
      have later : s.read.cursor.ahead s.read.store = rest := by
        rw [cursor, s.read_store, hrest]
        rfl
      obtain ⟨n, hended, hemitted⟩ :=
        ih (s := s.read) (s.read_store ▸ hs) (cursor ▸ hbatch') later
      refine ⟨n + 1, hended, ?_⟩
      have run : s.run (List.replicate (n + 1) .read) = s.read.run (List.replicate n .read) := rfl
      rw [run, hemitted, emitted, List.append_assoc]
      rfl

end Scan

/-- A scan that no write interrupts gives out the rows of its shard, in their order. -/
lemma PagedReader.readAll_eq {r : PagedReader} (hr : r.store.IsSound) (shard : Shard)
    (hour : Option Int) :
    r.readAll shard hour = (r.store.ofShard shard hour).map fun row => row.filed.record := by
  have few : (r.store.ofShard shard hour).length ≤ r.store.rows.length :=
    List.length_filter_le _ _
  rw [readAll, Cursor.take_eq hr (Nat.le_max_right _ _), Cursor.ahead_start hr,
    List.take_of_length_le (by rwa [List.length_map])]

end ShardIndex
