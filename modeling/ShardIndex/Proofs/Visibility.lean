import ShardIndex.Proofs.Durability
import ShardIndex.Proofs.Interchange
import Mathlib.Data.List.DropRight

/-!
# What is visible in the index in memory

The index in memory has three tables and a flag.  Each table is what the writes up to some moment
make: the writer's up to now, the committed one up to the last commit or refresh of the readers, and
the readers' one up to the last refresh (`VolatileIndex.Shows`).  The flag says whether anything was
written since the last commit or refresh.

A refresh leaves out its commit when the flag is down.  The committed table is the writer's then, so
nobody can tell, except by the number of commits (`VolatileIndex.Shows.refresh_commit`).  The main
result is `VolatileIndex.shows_performAll`.
-/

namespace ShardIndex

/-! ## Requests and their writes -/

namespace Request

/-- The write that a request is, if it is one. -/
def write? : Request → Option Write
  | .write mode key entry => some ⟨mode, key, entry⟩
  | _ => none

/-- Whether a request is a refresh of the readers. -/
def refreshes (r : Request) : Bool := r = .refreshReaders

/-- Whether a request leaves nothing to be committed: it is a commit or a refresh of the readers. -/
def settles (r : Request) : Bool := r = .commit ∨ r = .refreshReaders

/-- The writes among some requests. -/
def writes (rs : List Request) : List Write := rs.filterMap write?

/-- The writes before the last request of a kind; none if there is no such request. -/
def writesUpTo (kind : Request → Bool) (rs : List Request) : List Write :=
  writes (rs.rdropWhile fun r => !kind r)

/-- The writes since the last commit or refresh of the readers. -/
def unsettled (rs : List Request) : List Write := writes (rs.rtakeWhile fun r => !r.settles)

/-- How many refreshes of the readers came when something was still to be committed. -/
def lateRefreshes (rs : List Request) : Nat :=
  (List.range rs.length).countP fun n => rs[n]? = some .refreshReaders ∧ unsettled (rs.take n) ≠ []

variable {kind : Request → Bool} {rs : List Request} {r : Request} {w : Write}

lemma writes_concat (rs : List Request) (r : Request) :
    writes (rs ++ [r]) = writes rs ++ r.write?.toList := by
  rw [writes, List.filterMap_append]
  cases h : r.write? <;> simp [writes, h]

/-- A request of the kind is the last of its kind. -/
lemma writesUpTo_concat_of_kind (h : kind r = true) :
    writesUpTo kind (rs ++ [r]) = writes (rs ++ [r]) := by
  rw [writesUpTo, List.rdropWhile_concat_neg _ _ _ (by simp [h])]

lemma writesUpTo_concat_of_not (h : kind r = false) :
    writesUpTo kind (rs ++ [r]) = writesUpTo kind rs := by
  rw [writesUpTo, List.rdropWhile_concat_pos _ _ _ (by simp [h]), writesUpTo]

lemma unsettled_concat_of_settles (h : r.settles = true) : unsettled (rs ++ [r]) = [] := by
  rw [unsettled, List.rtakeWhile_concat_neg _ _ _ (by simp [h])]
  rfl

lemma unsettled_concat_of_write (h : r.write? = some w) :
    unsettled (rs ++ [r]) = unsettled rs ++ [w] := by
  have notSettling : r.settles = false := by
    cases r with
    | write mode key e => rfl
    | commit => cases h
    | refreshReaders => cases h
  rw [unsettled, List.rtakeWhile_concat_pos _ _ _ (by simp [notSettling]), writes_concat, h]
  rfl

/-- What is not settled was written after all that is. -/
lemma writes_eq (rs : List Request) : writes rs = writesUpTo settles rs ++ unsettled rs := by
  rw [writesUpTo, unsettled, writes, writes, writes, ← List.filterMap_append,
    List.rdropWhile_append_rtakeWhile]

lemma lateRefreshes_concat (rs : List Request) (r : Request) :
    lateRefreshes (rs ++ [r]) =
      lateRefreshes rs + if r = .refreshReaders ∧ unsettled rs ≠ [] then 1 else 0 := by
  have earlier : ∀ n ∈ List.range rs.length,
      (decide ((rs ++ [r])[n]? = some .refreshReaders ∧
          unsettled ((rs ++ [r]).take n) ≠ []) = true ↔
        decide (rs[n]? = some .refreshReaders ∧ unsettled (rs.take n) ≠ []) = true) := by
    intro n hn
    have hlt := List.mem_range.1 hn
    rw [List.getElem?_append_left hlt, List.take_append_of_le_length hlt.le]
  rw [lateRefreshes, List.length_append, List.length_singleton, List.range_succ,
    List.countP_append, List.countP_congr earlier, List.countP_singleton]
  simp [lateRefreshes]

end Request

open Request

/-! ## Step by step -/

namespace VolatileIndex

/-- What the tables of an index in memory show of the requests that it has carried out. -/
structure Shows (x : VolatileIndex) (rs : List Request) : Prop where
  /-- The writer has all writes. -/
  writer : x.writer = Snapshot.writeAll Table.empty (writes rs)
  /-- The writes before the last commit or refresh of the readers are committed. -/
  committed : x.committed = Snapshot.writeAll Table.empty (writesUpTo settles rs)
  /-- Readers see the writes before the last refresh. -/
  reader : x.reader = Snapshot.writeAll Table.empty (writesUpTo refreshes rs)
  pending : x.pending = true ↔ unsettled rs ≠ []
  /-- A refresh commits if something was still to be committed. -/
  commits : x.commits = rs.count .commit + lateRefreshes rs

namespace Shows

variable {x : VolatileIndex} {rs : List Request}

lemma empty : VolatileIndex.empty.Shows [] where
  writer := rfl
  committed := rfl
  reader := rfl
  pending := iff_of_false Bool.false_ne_true fun hne => hne rfl
  commits := rfl

/-- With nothing pending, everything is committed. -/
lemma committed_eq_writer (h : x.Shows rs) (hpending : x.pending = false) :
    x.committed = x.writer := by
  have settled : unsettled rs = [] := by
    by_contra hne
    cases (h.pending.2 hne).symm.trans hpending
  rw [h.committed, h.writer, writes_eq, settled, List.append_nil]

/-- A refresh that always commits leaves the same tables, and counts one commit more. -/
lemma refresh_commit (h : x.Shows rs) :
    x.commit.refresh = { x.refresh with commits := x.commits + 1 } := by
  cases hpending : x.pending with
  | true => simp [refresh, commit, hpending]
  | false => simp [refresh, commit, hpending, h.committed_eq_writer hpending]

lemma write (h : x.Shows rs) (mode : WriteMode) (key : Key) (e : Entry) :
    (x.write mode key e).Shows (rs ++ [.write mode key e]) where
  writer := by
    refine Table.ext_get? fun k => ?_
    have written : writes (rs ++ [.write mode key e]) = writes rs ++ [⟨mode, key, e⟩] :=
      writes_concat _ _
    rw [written, Snapshot.get?_writeAll_concat, ← h.writer]
    exact LawfulIndex.current?_write (x := x) rfl k
  committed := by
    rw [writesUpTo_concat_of_not rfl]
    exact h.committed
  reader := by
    rw [writesUpTo_concat_of_not rfl]
    exact h.reader
  pending := by
    rw [unsettled_concat_of_write rfl]
    exact iff_of_true rfl (List.append_ne_nil_of_right_ne_nil _ (List.cons_ne_nil _ _))
  commits := by
    rw [List.count_append, lateRefreshes_concat]
    exact h.commits

lemma commit (h : x.Shows rs) : x.commit.Shows (rs ++ [.commit]) where
  writer := by
    rw [writes_concat]
    exact h.writer.trans (congrArg _ (List.append_nil _).symm)
  committed := by
    rw [writesUpTo_concat_of_kind rfl, writes_concat]
    exact h.writer.trans (congrArg _ (List.append_nil _).symm)
  reader := by
    rw [writesUpTo_concat_of_not rfl]
    exact h.reader
  pending := by
    rw [unsettled_concat_of_settles rfl]
    exact iff_of_false Bool.false_ne_true fun hne => hne rfl
  commits := by
    rw [List.count_append, lateRefreshes_concat]
    show x.commits + 1 = _
    rw [h.commits]
    simp [Nat.add_right_comm]

/-- Whether a refresh commits or not, its tables are those after a commit. -/
lemma refresh (h : x.Shows rs) : x.refresh.Shows (rs ++ [.refreshReaders]) := by
  have all : writes (rs ++ [.refreshReaders]) = writes rs :=
    (writes_concat _ _).trans (List.append_nil _)
  have tables : x.refresh.writer = x.writer ∧ x.refresh.committed = x.writer ∧
      x.refresh.reader = x.writer ∧ x.refresh.pending = false ∧
      x.refresh.commits = x.commits + if x.pending then 1 else 0 := by
    cases hpending : x.pending with
    | true => simp [VolatileIndex.refresh, VolatileIndex.commit, hpending]
    | false => simp [VolatileIndex.refresh, hpending, h.committed_eq_writer hpending]
  obtain ⟨writer, committed, reader, pending, commits⟩ := tables
  constructor
  · rw [writer, h.writer, all]
  · rw [committed, h.writer, writesUpTo_concat_of_kind rfl, all]
  · rw [reader, h.writer, writesUpTo_concat_of_kind rfl, all]
  · rw [pending, unsettled_concat_of_settles rfl]
    exact iff_of_false Bool.false_ne_true fun hne => hne rfl
  · rw [commits, h.commits, List.count_append, lateRefreshes_concat]
    simp only [h.pending]
    simp [Nat.add_assoc]

lemma perform (h : x.Shows rs) (r : Request) : (Index.perform x r).2.Shows (rs ++ [r]) := by
  cases r with
  | write mode key e => exact h.write mode key e
  | commit => exact h.commit
  | refreshReaders => exact h.refresh

end Shows

/-- No request fails. -/
lemma eq_none_of_mem_performAll (x : VolatileIndex) (rs : List Request) :
    ∀ o ∈ (Index.performAll x rs).1, o = none := by
  induction rs generalizing x with
  | nil => exact List.forall_mem_nil _
  | cons r rest ih =>
    refine List.forall_mem_cons.2 ⟨?_, ih _⟩
    cases r <;> rfl

/-- **What is visible.**  A new index in memory carries out whatever it is asked for.  After that
the writer's table is what all writes make, the committed one is what those before the last commit
or refresh of the readers make, and readers see what those before the last refresh make.  Changes
are pending just if something was written since the last commit or refresh, and when none are, what
is committed is what the writer has.  So a refresh leaves the same tables as one that always
commits.  The number of commits is that of the commits that were asked for, and of the refreshes
that came when changes were pending. -/
theorem shows_performAll (rs : List Request) :
    let x := (Index.performAll empty rs).2
    (∀ o ∈ (Index.performAll empty rs).1, o = none) ∧
      x.writer = Snapshot.writeAll Table.empty (writes rs) ∧
      x.committed = Snapshot.writeAll Table.empty (writesUpTo settles rs) ∧
      x.reader = Snapshot.writeAll Table.empty (writesUpTo refreshes rs) ∧
      (x.pending = true ↔ unsettled rs ≠ []) ∧
      (x.pending = false → x.committed = x.writer) ∧
      x.commit.refresh = { x.refresh with commits := x.commits + 1 } ∧
      x.commits = rs.count .commit + lateRefreshes rs := by
  intro x
  have shows : x.Shows rs := by
    show (Index.performAll VolatileIndex.empty rs).2.Shows rs
    induction rs using List.reverseRecOn with
    | nil => exact .empty
    | append_singleton rs r ih =>
      rw [Index.performAll_append]
      exact ih.perform r
  exact ⟨eq_none_of_mem_performAll _ rs, shows.writer, shows.committed, shows.reader,
    shows.pending, shows.committed_eq_writer, shows.refresh_commit, shows.commits⟩

/-- Of two refreshes the first comes right after a commit, and the second commits by itself. -/
example :
    (Index.performAll empty
      [.write .add [1] ⟨0, 1, 2⟩, .commit, .refreshReaders, .write .add [2] ⟨1, 3, 4⟩,
        .refreshReaders]).2.commits = 2 := by
  decide +kernel

end VolatileIndex

end ShardIndex
