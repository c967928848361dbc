import ShardIndex.Proofs.Numbering
import ShardIndex.Proofs.Rows
import Mathlib.Data.List.Induction

/-!
# Scans that meet writes

A scan of a shard fetches its rows page by page, and between two pages anything may be written.  A
row that is written then comes after all others, so it lies ahead of the scan, and what the scan
has passed either is still there or has a row ahead in its place.  That is `PagedStore.ReadTo`,
which writes keep (`ReadTo.of_becomes`) and a page extends (`ReadTo.append`).  It holds all along a
scan (`Scan.IsSound.run`), so that in the end nothing was missed: `replay_run`.
-/

namespace ShardIndex

namespace PagedStore

variable {t t' : PagedStore} {shard : Shard} {row : StoredRow} {rows page later : List StoredRow}
  {position q : Nat}

lemma mem_ofShard : row ∈ t.ofShard shard none ↔ row ∈ t.rows ∧ row.filed.shard = shard := by
  simp [ofShard]

/-- The rows of a shard beyond a number. -/
def beyond (t : PagedStore) (shard : Shard) (hour : Option Int) (number : Nat) : List StoredRow :=
  (t.ofShard shard hour).filter fun row => number < row.number

lemma mem_beyond {hour : Option Int} {number : Nat} : row ∈ t.beyond shard hour number ↔
    row ∈ t.ofShard shard hour ∧ number < row.number := by
  simp [beyond]

lemma filter_beyond {hour : Option Int} {number later : Nat} (h : number ≤ later) :
    ((t.beyond shard hour number).filter fun row => later < row.number) =
      t.beyond shard hour later := by
  rw [beyond, List.filter_filter]
  refine List.filter_congr fun row _ => ?_
  simp only [← Bool.decide_and, decide_eq_decide]
  omega

/-- A page is an initial part of what lies beyond, and all of it unless the page is full. -/
lemma exists_page_append (t : PagedStore) (shard : Shard) (hour : Option Int) (number batch : Nat) :
    ∃ later, t.beyond shard hour number = t.page shard hour number batch ++ later ∧
      ((t.page shard hour number batch).length ≠ batch → later = []) := by
  have hpage : t.page shard hour number batch =
      if batch < 9223372036854775808 then (t.beyond shard hour number).take batch
      else t.beyond shard hour number := rfl
  rw [hpage]
  split
  · refine ⟨(t.beyond shard hour number).drop batch, (List.take_append_drop _ _).symm, ?_⟩
    intro hshort
    rw [List.length_take] at hshort
    exact List.drop_eq_nil_of_le (by omega)
  · exact ⟨[], (List.append_nil _).symm, fun _ => rfl⟩

lemma page_sublist (t : PagedStore) (shard : Shard) (hour : Option Int) (number batch : Nat) :
    (t.page shard hour number batch).Sublist (t.beyond shard hour number) := by
  obtain ⟨later, hbeyond, -⟩ := t.exists_page_append shard hour number batch
  rw [hbeyond]
  exact List.sublist_append_left _ _

lemma IsSound.ascending_beyond (ht : t.IsSound) (shard : Shard) (hour : Option Int) (number : Nat) :
    (t.beyond shard hour number).Pairwise fun row row' => row.number < row'.number :=
  (ht.ascending.filter _).filter _

/-- What lies beyond the last row of a page is what comes after the page. -/
lemma IsSound.beyond_of_getLast? (ht : t.IsSound) {hour : Option Int} {number : Nat}
    {last : StoredRow} (hbeyond : t.beyond shard hour number = page ++ later)
    (hlast : page.getLast? = some last) : t.beyond shard hour last.number = later := by
  have ascending := ht.ascending_beyond shard hour number
  rw [hbeyond] at ascending
  obtain ⟨hpage, -, hlater⟩ := List.pairwise_append.1 ascending
  have hmem := List.mem_of_getLast? hlast
  have hahead := (mem_beyond.1 (hbeyond ▸ List.mem_append_left later hmem)).2
  have passed : page.filter (fun row => last.number < row.number) = [] := by
    refine List.filter_eq_nil_iff.2 fun row hrow => ?_
    have := StoredRow.number_le_of_getLast? hpage hlast hrow
    simpa using this
  have left : later.filter (fun row => last.number < row.number) = later :=
    List.filter_eq_self.2 fun row hrow => decide_eq_true (hlater last hmem row hrow)
  rw [← filter_beyond hahead.le, hbeyond, List.filter_append, passed, left, List.nil_append]

/-- The rows of a page no longer lie beyond its last one. -/
lemma length_beyond_of_getLast? (ht : t.IsSound) {hour : Option Int} {number batch : Nat}
    {last : StoredRow} (hlast : (t.page shard hour number batch).getLast? = some last) :
    (t.page shard hour number batch).length + (t.beyond shard hour last.number).length ≤
      (t.beyond shard hour number).length := by
  obtain ⟨later, hbeyond, -⟩ := t.exists_page_append shard hour number batch
  rw [ht.beyond_of_getLast? hbeyond hlast, hbeyond, List.length_append]

/-! ## What was read of a shard -/

/-- The rows that were read of a shard up to a number, whether they are still there or not. -/
structure ReadTo (t : PagedStore) (shard : Shard) (position : Nat) (rows : List StoredRow) :
    Prop where
  /-- None was missed. -/
  mem_of_le : ∀ row ∈ t.ofShard shard none, row.number ≤ position → row ∈ rows
  /-- What is no longer there has a later row in its place. -/
  exists_le : ∀ row ∈ rows, ∃ row' ∈ t.ofShard shard none,
    row'.filed.slot = row.filed.slot ∧ row.number ≤ row'.number
  /-- None lies ahead. -/
  number_le : ∀ row ∈ rows, row.number ≤ position
  position_le : position ≤ t.lastNumber

namespace ReadTo

lemma start (ht : t.IsSound) (shard : Shard) : t.ReadTo shard 0 [] where
  mem_of_le row hrow hle := by
    have := ht.pos row (mem_ofShard.1 hrow).1
    omega
  exists_le _ hrow := by cases hrow
  number_le _ hrow := by cases hrow
  position_le := Nat.zero_le _

/-- What is written comes after all that was there, and so after all that was read. -/
lemma of_becomes (h : t.ReadTo shard position rows) (hbecomes : t.Becomes t') :
    t'.ReadTo shard position rows where
  mem_of_le row hrow hle := by
    obtain ⟨hmem, hshard⟩ := mem_ofShard.1 hrow
    rcases hbecomes.mem_or_lt row hmem with hmem | hlt
    · exact h.mem_of_le row (mem_ofShard.2 ⟨hmem, hshard⟩) hle
    · -- a new row has a greater number than the last old one, which the scan has not passed
      have := h.position_le
      omega
  exists_le row hrow := by
    obtain ⟨row', hrow', hslot, hle⟩ := h.exists_le row hrow
    obtain ⟨hmem, hshard⟩ := mem_ofShard.1 hrow'
    obtain ⟨row'', hrow'', hslot', hle'⟩ := hbecomes.exists_le row' hmem
    have hshard' : row''.filed.shard = shard := (Prod.mk.inj hslot').1.trans hshard
    exact ⟨row'', mem_ofShard.2 ⟨hrow'', hshard'⟩, hslot'.trans hslot, hle.trans hle'⟩
  number_le := h.number_le
  position_le := h.position_le.trans hbecomes.lastNumber_le

/-- Reading the next rows brings the scan to where these end. -/
lemma append (h : t.ReadTo shard position rows)
    (hbeyond : t.beyond shard none position = page ++ later)
    (hpage : ∀ row ∈ page, row.number ≤ q) (hlater : ∀ row ∈ later, q < row.number)
    (hposition : position ≤ q) (hq : q ≤ t.lastNumber) : t.ReadTo shard q (rows ++ page) where
  mem_of_le row hrow hle := by
    rcases Nat.lt_or_ge position row.number with hlt | hge
    · have hmem : row ∈ page ++ later := hbeyond ▸ mem_beyond.2 ⟨hrow, hlt⟩
      rcases List.mem_append.1 hmem with hmem | hmem
      · exact List.mem_append_right _ hmem
      · have := hlater row hmem
        omega
    · exact List.mem_append_left _ (h.mem_of_le row hrow hge)
  exists_le row hrow := by
    rcases List.mem_append.1 hrow with hrow | hrow
    · exact h.exists_le row hrow
    · have hmem : row ∈ t.beyond shard none position := hbeyond ▸ List.mem_append_left _ hrow
      exact ⟨row, (mem_beyond.1 hmem).1, rfl, le_rfl⟩
  number_le row hrow := by
    rcases List.mem_append.1 hrow with hrow | hrow
    · exact (h.number_le row hrow).trans hposition
    · exact hpage row hrow
  position_le := hq

/-- After a page with rows the scan stands at the last of them. -/
lemma page_of_getLast? (h : t.ReadTo shard position rows) (ht : t.IsSound) {batch : Nat}
    {last : StoredRow} (hlast : (t.page shard none position batch).getLast? = some last) :
    t.ReadTo shard last.number (rows ++ t.page shard none position batch) := by
  obtain ⟨later, hbeyond, -⟩ := t.exists_page_append shard none position batch
  have ascending := ht.ascending_beyond shard none position
  rw [hbeyond] at ascending
  obtain ⟨hpage, -, hlater⟩ := List.pairwise_append.1 ascending
  have hmem := List.mem_of_getLast? hlast
  have hahead := mem_beyond.1 (hbeyond ▸ List.mem_append_left later hmem)
  exact h.append hbeyond (fun row hrow => StoredRow.number_le_of_getLast? hpage hlast hrow)
    (hlater last hmem) hahead.2.le (ht.number_le_lastNumber (mem_ofShard.1 hahead.1).1)

/-- After a page that is not full the scan has read everything. -/
lemma page_of_length_ne (h : t.ReadTo shard position rows) (ht : t.IsSound) {batch : Nat}
    (hshort : (t.page shard none position batch).length ≠ batch) :
    t.ReadTo shard t.lastNumber (rows ++ t.page shard none position batch) := by
  obtain ⟨later, hbeyond, hlater⟩ := t.exists_page_append shard none position batch
  refine h.append hbeyond (fun row hrow => ?_) ?_ h.position_le le_rfl
  · have hmem := mem_beyond.1 (hbeyond ▸ List.mem_append_left later hrow)
    exact ht.number_le_lastNumber (mem_ofShard.1 hmem.1).1
  · rw [hlater hshort]
    exact List.forall_mem_nil _

end ReadTo

end PagedStore

/-! ## What a cursor does -/

namespace Cursor

/-- The page that a cursor fetches for the next record, if it needs one. -/
def fetch? (c : Cursor) (t : PagedStore) : Option (List StoredRow) :=
  match c.buffer, c.after with
  | [], some number => some (t.page c.shard c.hour number c.batch)
  | _, _ => none

/-- A cursor with a page in place of its empty buffer. -/
def refill (c : Cursor) (page : List StoredRow) : Cursor :=
  { c with after := c.resumeAfter page, buffer := page.map fun row => row.filed.record }

variable {c : Cursor} {t : PagedStore} {page : List StoredRow}

lemma fetch?_eq_some (h : c.fetch? t = some page) :
    c.buffer = [] ∧ ∃ number, c.after = some number ∧
      page = t.page c.shard c.hour number c.batch := by
  unfold fetch? at h
  split at h
  · rename_i number hbuffer hafter
    exact ⟨hbuffer, number, hafter, (Option.some.inj h).symm⟩
  · cases h

lemma fetch?_eq_none (h : c.fetch? t = none) (hbuffer : c.buffer = []) : c.after = none := by
  cases hafter : c.after with
  | none => rfl
  | some number =>
    rw [fetch?, hbuffer, hafter] at h
    cases h

lemma resumeAfter_nil (c : Cursor) : c.resumeAfter [] = none := by
  rw [resumeAfter]
  split <;> rfl

lemma exists_of_resumeAfter_eq_some {n : Nat} (h : c.resumeAfter page = some n) :
    ∃ last, page.getLast? = some last ∧ last.number = n := by
  rw [resumeAfter] at h
  split at h
  · exact Option.map_eq_some_iff.1 h
  · cases h

/-- Nothing more is fetched after a page that is not full. -/
lemma length_ne_of_resumeAfter_eq_none (hbatch : 0 < c.batch) (h : c.resumeAfter page = none) :
    page.length ≠ c.batch := by
  intro hfull
  rw [resumeAfter, if_pos hfull, Option.map_eq_none_iff, List.getLast?_eq_none_iff] at h
  rw [h] at hfull
  exact hbatch.ne hfull

/-- The next record is the first at hand, once a page is fetched if none was. -/
lemma next_eq (c : Cursor) (t : PagedStore) :
    c.next t =
      let c := (c.fetch? t).elim c c.refill
      (c.buffer.head?, { c with buffer := c.buffer.tail }) := by
  obtain ⟨shard, hour, batch, after, buffer⟩ := c
  cases buffer with
  | cons record rest => rfl
  | nil =>
    cases after with
    | none => rfl
    | some number =>
      simp only [next, fetch?, Option.elim_some, refill]
      split
      · rename_i hnil
        have hpage : t.page shard hour number batch = [] := List.map_eq_nil_iff.1 hnil
        rw [hpage, resumeAfter_nil]
        rfl
      · rename_i record rest hrecords
        rw [hrecords]
        rfl

end Cursor

/-! ## Scans -/

/-- A scan in progress, with the store that it reads. -/
structure Scan where
  store : PagedStore
  cursor : Cursor
  /-- The records that the scan has given out. -/
  emitted : List Record := []
  /-- Whether it has come to its end. -/
  ended : Bool := false
  /-- The rows of all pages that were fetched. -/
  fetched : List StoredRow := []
  /-- The store as it was when the last page was fetched. -/
  seen : PagedStore

namespace Scan

/-- What happens while a scan is in progress. -/
inductive Turn
  /-- A batch is written to a shard. -/
  | write (shard : Shard) (batch : List (Record × Int))
  /-- The scan is asked for the next record. -/
  | read

/-- A scan of a shard before its first page. -/
def start (t : PagedStore) (shard : Shard) (batch : Nat) : Scan :=
  { store := t, cursor := .start shard none batch, seen := t }

/-- Ask a scan for the next record. -/
def read (s : Scan) : Scan :=
  let (record, cursor) := s.cursor.next s.store
  let page := s.cursor.fetch? s.store
  { s with
    cursor := cursor
    emitted := s.emitted ++ record.toList
    ended := record.isNone
    fetched := page.elim s.fetched (s.fetched ++ ·)
    seen := page.elim s.seen fun _ => s.store }

/-- A batch that is refused changes nothing. -/
def turn (s : Scan) : Turn → Scan
  | .write shard batch =>
    match s.store.write shard batch with
    | .error _ => s
    | .ok t => { s with store := t }
  | .read => s.read

/-- What becomes of a scan. -/
def run (s : Scan) (turns : List Turn) : Scan := turns.foldl turn s

/-- A scan has read its shard up to where its cursor stands, or else all that there was when it
fetched its last page. -/
structure IsSound (s : Scan) (shard : Shard) : Prop where
  store : s.store.IsSound
  seen : s.seen.IsSound
  ofShard : s.cursor.shard = shard
  allHours : s.cursor.hour = none
  batch_pos : 0 < s.cursor.batch
  /-- What was fetched was given out in order, or is at hand. -/
  delivered : s.emitted ++ s.cursor.buffer = s.fetched.map fun row => row.filed.record
  ascending : s.fetched.Pairwise fun row row' => row.number < row'.number
  reading : ∀ position, s.cursor.after = some position → s.store.ReadTo shard position s.fetched
  finished : s.cursor.after = none → s.seen.ReadTo shard s.seen.lastNumber s.fetched
  drained : s.ended = true → s.cursor.after = none ∧ s.cursor.buffer = []

/-- A scan with a page fetched, if the next record needs one. -/
def fetch (s : Scan) : Scan :=
  match s.cursor.fetch? s.store with
  | none => s
  | some page =>
    { s with cursor := s.cursor.refill page, fetched := s.fetched ++ page, seen := s.store }

/-- A scan after it has given out the first record at hand. -/
def give (s : Scan) : Scan :=
  { s with
    cursor := { s.cursor with buffer := s.cursor.buffer.tail }
    emitted := s.emitted ++ s.cursor.buffer.head?.toList
    ended := s.cursor.buffer.head?.isNone }

lemma read_eq (s : Scan) : s.read = s.fetch.give := by
  rw [read, Cursor.next_eq, fetch]
  cases s.cursor.fetch? s.store <;> rfl

/-- What a scan gives out it had at hand. -/
lemma emitted_append_buffer_give (s : Scan) :
    s.give.emitted ++ s.give.cursor.buffer = s.emitted ++ s.cursor.buffer := by
  have whole : s.cursor.buffer.head?.toList ++ s.cursor.buffer.tail = s.cursor.buffer := by
    cases s.cursor.buffer <;> rfl
  show s.emitted ++ s.cursor.buffer.head?.toList ++ s.cursor.buffer.tail = _
  rw [List.append_assoc, whole]

variable {s : Scan} {shard : Shard}

/-- A scan that gives out nothing has nothing at hand. -/
lemma drained_give (hempty : s.cursor.buffer = [] → s.cursor.after = none)
    (hended : s.give.ended = true) :
    s.give.cursor.after = none ∧ s.give.cursor.buffer = [] := by
  have hbuffer : s.cursor.buffer = [] :=
    List.head?_eq_none_iff.1 (Option.isNone_iff_eq_none.1 hended)
  exact ⟨hempty hbuffer, congrArg List.tail hbuffer⟩

/-- A scan that has nothing at hand after a fetch has nothing more to fetch. -/
lemma after_fetch_eq_none (hbuffer : s.fetch.cursor.buffer = []) :
    s.fetch.cursor.after = none := by
  rw [fetch] at hbuffer ⊢
  split at hbuffer
  · rename_i hnone
    exact Cursor.fetch?_eq_none hnone hbuffer
  · rename_i page hpage
    obtain rfl : page = [] := List.map_eq_nil_iff.1 hbuffer
    exact s.cursor.resumeAfter_nil

lemma isSound_start {t : PagedStore} (ht : t.IsSound) (shard : Shard) (batch : Nat) :
    (start t shard batch).IsSound shard where
  store := ht
  seen := ht
  ofShard := rfl
  allHours := rfl
  batch_pos := Nat.le_max_right _ _
  delivered := rfl
  ascending := List.Pairwise.nil
  reading position hposition := by
    obtain rfl : 0 = position := Option.some.inj hposition
    exact .start ht shard
  finished hnone := by cases hnone
  drained hended := by cases hended

namespace IsSound

lemma write (h : s.IsSound shard) (other : Shard) (batch : List (Record × Int)) :
    (s.turn (.write other batch)).IsSound shard := by
  rw [turn]
  split
  · exact h
  · rename_i t ht
    obtain ⟨sound, becomes⟩ := h.store.write ht
    exact { h with
      store := sound
      reading := fun position hposition => (h.reading position hposition).of_becomes becomes }

lemma fetch (h : s.IsSound shard) : s.fetch.IsSound shard := by
  rw [Scan.fetch]
  split
  · exact h
  · rename_i page hpage
    obtain ⟨hbuffer, number, hafter, rfl⟩ := Cursor.fetch?_eq_some hpage
    rw [h.ofShard, h.allHours]
    -- the store now is the one that the page comes from, so it is also the one last seen
    have readTo := h.reading number hafter
    exact
      { store := h.store
        seen := h.store
        ofShard := h.ofShard
        allHours := h.allHours
        batch_pos := h.batch_pos
        delivered := by
          have delivered := h.delivered
          rw [hbuffer, List.append_nil] at delivered
          show s.emitted ++ List.map _ _ = List.map _ (s.fetched ++ _)
          rw [delivered, List.map_append]
        ascending := by
          have sublist := s.store.page_sublist shard none number s.cursor.batch
          refine List.pairwise_append.2 ⟨h.ascending,
            (h.store.ascending_beyond shard none number).sublist sublist, ?_⟩
          intro row hrow row' hrow'
          exact (readTo.number_le row hrow).trans_lt
            (PagedStore.mem_beyond.1 (sublist.subset hrow')).2
        reading := fun position hposition => by
          obtain ⟨last, hlast, rfl⟩ := Cursor.exists_of_resumeAfter_eq_some hposition
          exact readTo.page_of_getLast? h.store hlast
        finished := fun hnone => readTo.page_of_length_ne h.store
          (Cursor.length_ne_of_resumeAfter_eq_none h.batch_pos hnone)
        drained := fun hended => by
          cases hafter.symm.trans (h.drained hended).1 }

lemma give (h : s.IsSound shard) (hempty : s.cursor.buffer = [] → s.cursor.after = none) :
    s.give.IsSound shard where
  store := h.store
  seen := h.seen
  ofShard := h.ofShard
  allHours := h.allHours
  batch_pos := h.batch_pos
  delivered := s.emitted_append_buffer_give.trans h.delivered
  ascending := h.ascending
  reading := h.reading
  finished := h.finished
  drained := drained_give hempty

lemma read (h : s.IsSound shard) : s.read.IsSound shard := by
  rw [read_eq]
  exact h.fetch.give after_fetch_eq_none

lemma run (h : s.IsSound shard) (turns : List Turn) : (s.run turns).IsSound shard := by
  induction turns generalizing s with
  | nil => exact h
  | cons turn rest ih =>
    cases turn with
    | write other batch => exact ih (h.write other batch)
    | read => exact ih h.read

end IsSound

/-! ## Scans come to their end -/

lemma read_store (s : Scan) : s.read.store = s.store := by
  rw [read_eq, fetch]
  split <;> rfl

/-- How many records a scan gives out at most, if nothing more is written. -/
def remaining (s : Scan) : Nat :=
  s.cursor.buffer.length + s.cursor.after.elim 0 fun number =>
    (s.store.beyond s.cursor.shard s.cursor.hour number).length

lemma remaining_fetch_le (hs : s.store.IsSound) : s.fetch.remaining ≤ s.remaining := by
  rw [fetch]
  split
  · exact le_rfl
  · rename_i page hpage
    obtain ⟨hbuffer, number, hafter, rfl⟩ := Cursor.fetch?_eq_some hpage
    have before : s.remaining =
        (s.store.beyond s.cursor.shard s.cursor.hour number).length := by
      rw [remaining, hbuffer, hafter]
      exact Nat.zero_add _
    rw [before]
    simp only [remaining, Cursor.refill, List.length_map]
    generalize hresume : s.cursor.resumeAfter _ = next
    cases next with
    | none => exact (s.store.page_sublist _ _ _ _).length_le
    | some position =>
      obtain ⟨last, hlast, rfl⟩ := Cursor.exists_of_resumeAfter_eq_some hresume
      exact PagedStore.length_beyond_of_getLast? hs hlast

/-- A scan that is asked for a record gives one out, or it has come to its end. -/
lemma ended_or_remaining_lt (hs : s.store.IsSound) :
    s.read.ended = true ∨ s.read.remaining < s.remaining := by
  have hfetch := remaining_fetch_le hs
  rw [read_eq]
  cases hbuffer : s.fetch.cursor.buffer with
  | nil =>
    left
    rw [give, hbuffer]
    rfl
  | cons record rest =>
    right
    have hgive : s.fetch.give.remaining + 1 = s.fetch.remaining := by
      simp only [remaining, give, hbuffer, List.tail_cons, List.length_cons]
      omega
    omega

/-- A scan that is asked for records often enough comes to its end. -/
lemma exists_ended (hs : s.store.IsSound) : ∃ n, (s.run (List.replicate n .read)).ended = true := by
  induction hremaining : s.remaining using Nat.strong_induction_on generalizing s with
  | _ remaining ih =>
    rcases ended_or_remaining_lt hs with hended | hlt
    · exact ⟨1, hended⟩
    · have hread : s.read.store.IsSound := s.read_store ▸ hs
      obtain ⟨n, hended⟩ := ih _ (hremaining ▸ hlt) hread rfl
      exact ⟨n + 1, hended⟩

/-! ## Versions -/

lemma run_concat (s : Scan) (turns : List Turn) (turn : Turn) :
    s.run (turns ++ [turn]) = (s.run turns).turn turn := by
  rw [run, List.foldl_append]
  rfl

lemma becomes_turn (hs : s.store.IsSound) (turn : Turn) :
    (s.turn turn).store.IsSound ∧ s.store.Becomes (s.turn turn).store := by
  cases turn with
  | read =>
    rw [Scan.turn, read_store]
    exact ⟨hs, .refl _⟩
  | write other batch =>
    rw [Scan.turn]
    split
    · exact ⟨hs, .refl _⟩
    · rename_i t ht
      exact hs.write ht

/-- While a scan is in progress its store changes by writes alone. -/
lemma becomes_run (hs : s.store.IsSound) (turns : List Turn) :
    (s.run turns).store.IsSound ∧ s.store.Becomes (s.run turns).store := by
  induction turns generalizing s with
  | nil => exact ⟨hs, .refl _⟩
  | cons turn rest ih =>
    obtain ⟨sound, becomes⟩ := becomes_turn hs turn
    obtain ⟨sound', becomes'⟩ := ih sound
    exact ⟨sound', becomes.trans becomes'⟩

/-- A number stands for one row as long as a scan is in progress. -/
lemma eq_of_number_eq (hs : s.store.IsSound) {turns before before' : List Turn}
    (hbefore : before <+: turns) (hbefore' : before' <+: turns) {row row' : StoredRow}
    (hrow : row ∈ (s.run before).store.rows) (hrow' : row' ∈ (s.run before').store.rows)
    (hnumber : row.number = row'.number) : row = row' := by
  have later {earlier more : List Turn} :
      (s.run earlier).store.Becomes (s.run (earlier ++ more)).store := by
    rw [run, run, List.foldl_append]
    exact (becomes_run (becomes_run hs earlier).1 more).2
  rcases List.prefix_or_prefix_of_prefix hbefore hbefore' with ⟨more, rfl⟩ | ⟨more, rfl⟩
  · exact later.eq_of_number_eq (becomes_run hs before).1 hrow hrow' hnumber
  · exact (later.eq_of_number_eq (becomes_run hs before').1 hrow' hrow hnumber.symm).symm

lemma mem_of_mem_fetched_read {row : StoredRow} (hrow : row ∈ s.read.fetched) :
    row ∈ s.fetched ∨ row ∈ s.store.rows := by
  rw [read_eq] at hrow
  have hrow : row ∈ s.fetch.fetched := hrow
  rw [fetch] at hrow
  split at hrow
  · exact Or.inl hrow
  · rename_i page hpage
    obtain ⟨-, number, -, rfl⟩ := Cursor.fetch?_eq_some hpage
    rcases List.mem_append.1 hrow with hrow | hrow
    · exact Or.inl hrow
    · have hmem := (s.store.page_sublist _ _ _ _).subset hrow
      exact Or.inr (List.mem_of_mem_filter (List.mem_of_mem_filter hmem))

/-- Every row that a scan has fetched was in its store at some time. -/
lemma exists_of_mem_fetched {turns : List Turn} {row : StoredRow}
    (hrow : row ∈ (s.run turns).fetched) :
    row ∈ s.fetched ∨ ∃ before, before <+: turns ∧ row ∈ (s.run before).store.rows := by
  induction turns using List.reverseRecOn with
  | nil => exact Or.inl hrow
  | append_singleton turns turn ih =>
    have earlier (h : row ∈ (s.run turns).fetched) :
        row ∈ s.fetched ∨
          ∃ before, before <+: turns ++ [turn] ∧ row ∈ (s.run before).store.rows := by
      rcases ih h with h | ⟨before, hbefore, hmem⟩
      · exact Or.inl h
      · exact Or.inr ⟨before, hbefore.trans (List.prefix_append _ _), hmem⟩
    rw [run_concat] at hrow
    cases turn with
    | read =>
      rcases mem_of_mem_fetched_read hrow with hrow | hrow
      · exact earlier hrow
      · exact Or.inr ⟨turns, List.prefix_append _ _, hrow⟩
    | write other batch =>
      rw [Scan.turn] at hrow
      split at hrow <;> exact earlier hrow

/-! ## Replays -/

/-- The windows of keys after records were taken in one after another, the last one of a key
staying. -/
def replay (records : List Record) : Table (Int × Int) :=
  .ofList (records.map fun r => (r.key, r.startTime, r.endTime))

lemma get?_replay_concat (records : List Record) (r : Record) (key : Key) :
    (replay (records ++ [r])).get? key =
      if key = r.key then some (r.startTime, r.endTime) else (replay records).get? key := by
  rw [replay, List.map_append, Table.ofList, Table.insertAll_append]
  exact Table.get?_insert _ _ _ _

/-- Of rows with ascending numbers the one with the greatest counts for a key. -/
lemma get?_replay_iff {rows : List StoredRow}
    (h : rows.Pairwise fun row row' => row.number < row'.number) {r : Record} :
    (replay (rows.map fun row => row.filed.record)).get? r.key = some (r.startTime, r.endTime) ↔
      ∃ row ∈ rows, row.filed.record = r ∧
        ∀ row' ∈ rows, row'.filed.record.key = r.key → row'.number ≤ row.number := by
  induction rows using List.reverseRecOn with
  | nil =>
    constructor
    · intro hnone
      cases hnone
    · rintro ⟨row, hrow, -⟩
      cases hrow
  | append_singleton rows last ih =>
    obtain ⟨hrows, -, hlast⟩ := List.pairwise_append.1 h
    have before : ∀ row ∈ rows, row.number < last.number := fun row hrow =>
      hlast row hrow last (List.mem_singleton_self _)
    rw [List.map_append, List.map_singleton, get?_replay_concat]
    by_cases hkey : r.key = last.filed.record.key
    · -- the last row has the key, so it is the one that counts
      rw [if_pos hkey, Option.some_inj, Prod.mk.injEq]
      constructor
      · rintro ⟨hstart, hend⟩
        have hrecord : last.filed.record = r := by
          cases hr : last.filed.record
          cases r
          simp_all
        refine ⟨last, List.mem_append_right _ (List.mem_singleton_self _), hrecord, ?_⟩
        intro row hrow _
        rcases List.mem_append.1 hrow with hrow | hrow
        · exact (before row hrow).le
        · rw [List.mem_singleton.1 hrow]
      · rintro ⟨row, hrow, hrecord, hgreatest⟩
        have hle : last.number ≤ row.number :=
          hgreatest last (List.mem_append_right _ (List.mem_singleton_self _)) hkey.symm
        rcases List.mem_append.1 hrow with hrow | hrow
        · exact absurd (before row hrow) (Nat.not_lt.2 hle)
        · rw [← hrecord, List.mem_singleton.1 hrow]
          exact ⟨rfl, rfl⟩
    · rw [if_neg hkey, ih hrows]
      constructor
      · rintro ⟨row, hrow, hrecord, hgreatest⟩
        refine ⟨row, List.mem_append_left _ hrow, hrecord, fun row' hrow' hkey' => ?_⟩
        rcases List.mem_append.1 hrow' with hrow' | hrow'
        · exact hgreatest row' hrow' hkey'
        · rw [List.mem_singleton.1 hrow'] at hkey'
          exact absurd hkey'.symm hkey
      · rintro ⟨row, hrow, hrecord, hgreatest⟩
        rcases List.mem_append.1 hrow with hrow | hrow
        · exact ⟨row, hrow, hrecord, fun row' hrow' =>
            hgreatest row' (List.mem_append_left _ hrow')⟩
        · rw [List.mem_singleton.1 hrow] at hrecord
          exact absurd (congrArg Record.key hrecord).symm hkey

/-- After a scan has read everything, replaying what it has read gives what is there: of each key
the last row that was read is the one that is there. -/
lemma get?_replay_of_readTo {t : PagedStore} {rows : List StoredRow} (ht : t.IsSound)
    (hread : t.ReadTo shard t.lastNumber rows)
    (hascending : rows.Pairwise fun row row' => row.number < row'.number) (r : Record) :
    (replay (rows.map fun row => row.filed.record)).get? r.key = some (r.startTime, r.endTime) ↔
      ∃ row ∈ t.ofShard shard none, row.filed.record = r := by
  rw [get?_replay_iff hascending]
  constructor
  · rintro ⟨row, hrow, hrecord, hgreatest⟩
    -- the row that is there in its place was read as well, and is not greater
    obtain ⟨row', hrow', hslot, hle⟩ := hread.exists_le row hrow
    have hkey : row'.filed.record.key = r.key := by
      rw [← hrecord]
      exact (Prod.mk.inj hslot).2
    have hmem : row' ∈ rows :=
      hread.mem_of_le row' hrow' (ht.number_le_lastNumber (PagedStore.mem_ofShard.1 hrow').1)
    have hnumber : row'.number = row.number := (hgreatest row' hmem hkey).antisymm hle
    obtain rfl := StoredRow.eq_of_number_eq hascending hmem hrow hnumber
    exact ⟨row', hrow', hrecord⟩
  · rintro ⟨row, hrow, rfl⟩
    obtain ⟨hstored, hshard⟩ := PagedStore.mem_ofShard.1 hrow
    refine ⟨row, hread.mem_of_le row hrow (ht.number_le_lastNumber hstored), rfl, ?_⟩
    intro other hother hkey
    -- a key of the shard has one row, so it is this one that is there in place of any other
    obtain ⟨row', hrow', hslot, hle⟩ := hread.exists_le other hother
    obtain ⟨hstored', hshard'⟩ := PagedStore.mem_ofShard.1 hrow'
    have hslot' : row'.filed.slot = row.filed.slot :=
      Prod.ext (hshard'.trans hshard.symm) ((Prod.mk.inj hslot).2.trans hkey)
    rw [← ht.eq_of_slot_eq hstored' hstored hslot']
    exact hle

/-- **A scan loses nothing.**  Between the pages of a scan batches may be written, to its shard or
to another, of new keys or of old ones.  When the scan has come to its end, replaying the records
that it has given out, the last one of a key staying, gives just the records that the shard had
when the last page was fetched.

The scan gives out rows that it has fetched, in order and each once.  Every one of them was in the
store at some time, and no two rows that ever were in it have one number.  Once nothing more is
written the scan comes to its end. -/
theorem replay_run {t : PagedStore} (ht : t.IsSound) (shard : Shard) (batch : Nat)
    (turns : List Turn) :
    let after := (start t shard batch).run
    let s := after turns
    (s.ended = true →
      (s.emitted = s.fetched.map fun row => row.filed.record) ∧
      ∀ r : Record, (replay s.emitted).get? r.key = some (r.startTime, r.endTime) ↔
        ∃ row ∈ s.seen.rows, row.filed.shard = shard ∧ row.filed.record = r) ∧
    s.emitted <+: s.fetched.map (fun row => row.filed.record) ∧
    (s.fetched.Pairwise fun row row' => row.number < row'.number) ∧
    (∀ row ∈ s.fetched, ∃ before, before <+: turns ∧ row ∈ (after before).store.rows) ∧
    (∀ before before', before <+: turns → before' <+: turns →
      ∀ row ∈ (after before).store.rows, ∀ row' ∈ (after before').store.rows,
        row.number = row'.number → row = row') ∧
    ∃ n, (after (turns ++ List.replicate n .read)).ended = true := by
  intro after s
  have sound : s.IsSound shard := (isSound_start ht shard batch).run turns
  refine ⟨fun hended => ?_, ⟨_, sound.delivered⟩, sound.ascending, fun row hrow => ?_,
    fun before before' hbefore hbefore' row hrow row' hrow' => eq_of_number_eq ht hbefore hbefore'
      hrow hrow', ?_⟩
  · obtain ⟨hafter, hbuffer⟩ := sound.drained hended
    have hemitted : s.emitted = s.fetched.map fun row => row.filed.record := by
      rw [← sound.delivered, hbuffer, List.append_nil]
    refine ⟨hemitted, fun r => ?_⟩
    rw [hemitted, get?_replay_of_readTo sound.seen (sound.finished hafter) sound.ascending]
    simp only [PagedStore.mem_ofShard, and_assoc]
  · rcases exists_of_mem_fetched hrow with hnone | hbefore
    · cases hnone
    · exact hbefore
  · obtain ⟨n, hended⟩ := exists_ended sound.store
    refine ⟨n, ?_⟩
    rw [← hended]
    exact congrArg Scan.ended List.foldl_append

/-- A store with two keys in one shard. -/
def twoKeys : PagedStore :=
  ⟨[⟨1, ⟨⟨"metrics", 0⟩, ⟨[170], 1, 2⟩, 0⟩⟩, ⟨2, ⟨⟨"metrics", 0⟩, ⟨[171], 3, 4⟩, 0⟩⟩]⟩

lemma isSound_twoKeys : twoKeys.IsSound := ⟨by decide, by decide, by decide⟩

/-- While it is read with pages of one row, the key already read is written again with a new one,
and so is a key of another shard. -/
def twoKeysTurns : List Turn :=
  [.read, .write ⟨"metrics", 0⟩ [(⟨[170], 5, 9⟩, 1), (⟨[172], 0, 1⟩, 1)],
    .write ⟨"metrics", 1⟩ [(⟨[171], 7, 7⟩, 1)], .read, .read, .read, .read]

/-- The scan gives out both versions of that key, and the second one counts. -/
theorem replay_run_twoKeys :
    let s := (start twoKeys ⟨"metrics", 0⟩ 1).run twoKeysTurns
    s.ended = true ∧ s.emitted = [⟨[170], 1, 2⟩, ⟨[171], 3, 4⟩, ⟨[170], 5, 9⟩, ⟨[172], 0, 1⟩] ∧
      (replay s.emitted).get? [170] = some (5, 9) := by
  intro s
  have hended : s.ended = true := by decide +kernel
  have hemitted : s.emitted = [⟨[170], 1, 2⟩, ⟨[171], 3, 4⟩, ⟨[170], 5, 9⟩, ⟨[172], 0, 1⟩] := by
    decide +kernel
  have stored : ⟨3, ⟨⟨"metrics", 0⟩, ⟨[170], 5, 9⟩, 1⟩⟩ ∈ s.seen.rows := by decide +kernel
  obtain ⟨hreplay, -⟩ := replay_run isSound_twoKeys ⟨"metrics", 0⟩ 1 twoKeysTurns
  exact ⟨hended, hemitted, ((hreplay hended).2 ⟨[170], 5, 9⟩).2 ⟨_, stored, rfl, rfl⟩⟩

end Scan

end ShardIndex
