import ShardIndex.Proofs.Lawful
import Mathlib.Data.List.Induction

/-!
# What an index in a table keeps

An index in a table is written, committed, shown to its readers, closed and opened again, and a
commit may fail at any statement of its transaction.  Each write has a fate: it is committed, or
dropped when the index is closed before that, or still open (`DurableIndex.fate`).

The main result is `DurableIndex.stored_run`: at every moment the table is what the committed writes
make of the empty one, one after another, and what a write finds is what these make together with
the open ones.  This is so although a merge is worked out when it is asked for, against whatever the
buffer and the table hold then, and long before it is stored: a commit that ends well stores what
was there for writes to find, and one that fails changes nothing (`DurableIndex.commit_cases`).
-/

namespace ShardIndex

/-! ## Writes one after another -/

/-- A write for a key. -/
structure Write where
  mode : WriteMode
  key : Key
  entry : Entry
deriving DecidableEq, Repr

/-- A table after some writes, one after another. -/
def Snapshot.writeAll (t : Snapshot) (ws : List Write) : Snapshot :=
  ws.foldl (fun t w => t.insert w.key (w.mode.apply (t.get? w.key) w.entry)) t

lemma Snapshot.get?_writeAll_concat (t : Snapshot) (ws : List Write) (w : Write) (key : Key) :
    (t.writeAll (ws ++ [w])).get? key =
      if key = w.key then some (w.mode.apply ((t.writeAll ws).get? w.key) w.entry)
      else (t.writeAll ws).get? key := by
  rw [writeAll, List.foldl_append]
  exact Table.get?_insert _ _ _ _

/-! ## What becomes of writes -/

/-- What has happened to an index in a table, as far as its writes are concerned. -/
inductive Mark
  | written (w : Write)
  /-- A commit has ended well. -/
  | committed
  /-- A commit has failed. -/
  | failed
  /-- The index was closed and opened again. -/
  | closed
deriving DecidableEq, Repr

/-- What a mark settles for the writes before, if anything. -/
def Mark.settles? : Mark → Option Mark
  | .committed => some .committed
  | .closed => some .closed
  | _ => none

namespace DurableIndex

/-- What becomes of a write that is followed by some marks: the first of them that settles it. -/
def fate (ms : List Mark) : Option Mark := ms.findSome? Mark.settles?

/-- The writes whose fate is one of some, in their order. -/
def writesWith (p : Option Mark → Bool) : List Mark → List Write
  | [] => []
  | .written w :: rest => if p (fate rest) then w :: writesWith p rest else writesWith p rest
  | _ :: rest => writesWith p rest

/-- The writes that were followed by a commit before the index was closed. -/
def durable (ms : List Mark) : List Write := writesWith (fun o => o = some .committed) ms

/-- The writes that were followed neither by a commit nor by the closing of the index. -/
def unsettled (ms : List Mark) : List Write := writesWith (fun o => o = none) ms

/-- One mark more settles what was open. -/
lemma writesWith_concat (p : Option Mark → Bool) (ms : List Mark) (m : Mark) :
    writesWith p (ms ++ [m]) = writesWith (fun o => p (o.or m.settles?)) ms ++ writesWith p [m] := by
  induction ms with
  | nil => rfl
  | cons first rest ih =>
    cases first with
    | written w =>
      have later : fate (rest ++ [m]) = (fate rest).or m.settles? := by
        rw [fate, List.findSome?_append, List.findSome?_singleton, fate]
      rw [List.cons_append, writesWith, writesWith, later, ih]
      split <;> rfl
    | committed => exact ih
    | failed => exact ih
    | closed => exact ih

lemma writesWith_eq_nil {p : Option Mark → Bool} (h : ∀ o, p o = false) (ms : List Mark) :
    writesWith p ms = [] := by
  induction ms with
  | nil => rfl
  | cons first rest ih =>
    cases first with
    | written w => rw [writesWith, h, ih]; rfl
    | committed => exact ih
    | failed => exact ih
    | closed => exact ih

/-- As long as nothing is settled, no write has been committed. -/
lemma durable_eq_nil {ms : List Mark} (h : fate ms = none) : durable ms = [] := by
  induction ms with
  | nil => rfl
  | cons first rest ih =>
    cases first with
    | written w =>
      have still : fate rest = none := h
      rw [durable, writesWith, still]
      exact ih still
    | failed => exact ih h
    | committed => cases h
    | closed => cases h

/-- The open writes come after the committed ones. -/
lemma writesWith_or (ms : List Mark) :
    writesWith (fun o => o = some .committed ∨ o = none) ms = durable ms ++ unsettled ms := by
  induction ms with
  | nil => rfl
  | cons first rest ih =>
    cases first with
    | written w =>
      rw [writesWith, durable, writesWith, unsettled, writesWith, ih]
      cases hfate : fate rest with
      | none =>
        rw [durable_eq_nil hfate]
        show _ = durable rest ++ _
        rw [durable_eq_nil hfate]
        rfl
      | some m => cases m <;> rfl
    | committed => exact ih
    | failed => exact ih
    | closed => exact ih

section Concat

variable (ms : List Mark) (w : Write)

@[simp] lemma durable_concat_written : durable (ms ++ [.written w]) = durable ms := by
  simp [durable, writesWith_concat, Mark.settles?, writesWith, fate]

@[simp] lemma unsettled_concat_written : unsettled (ms ++ [.written w]) = unsettled ms ++ [w] := by
  simp [unsettled, writesWith_concat, Mark.settles?, writesWith, fate]

@[simp] lemma durable_concat_failed : durable (ms ++ [.failed]) = durable ms := by
  simp [durable, writesWith_concat, Mark.settles?, writesWith]

@[simp] lemma unsettled_concat_failed : unsettled (ms ++ [.failed]) = unsettled ms := by
  simp [unsettled, writesWith_concat, Mark.settles?, writesWith]

/-- A commit takes the open writes. -/
@[simp] lemma durable_concat_committed :
    durable (ms ++ [.committed]) = durable ms ++ unsettled ms := by
  have fates : (fun o : Option Mark => decide (o.or (some .committed) = some .committed)) =
      fun o => decide (o = some .committed ∨ o = none) := by
    funext o
    cases o <;> simp
  rw [← writesWith_or, durable, writesWith_concat]
  exact (List.append_nil _).trans (congrArg (writesWith · ms) fates)

@[simp] lemma unsettled_concat_committed : unsettled (ms ++ [.committed]) = [] := by
  rw [unsettled, writesWith_concat]
  exact (List.append_nil _).trans (writesWith_eq_nil (fun o => by cases o <;> rfl) ms)

/-- Closing drops the open writes. -/
@[simp] lemma durable_concat_closed : durable (ms ++ [.closed]) = durable ms := by
  have fates : (fun o : Option Mark => decide (o.or (some .closed) = some .committed)) =
      fun o => decide (o = some .committed) := by
    funext o
    cases o <;> simp
  rw [durable, writesWith_concat]
  exact (List.append_nil _).trans (congrArg (writesWith · ms) fates)

@[simp] lemma unsettled_concat_closed : unsettled (ms ++ [.closed]) = [] := by
  rw [unsettled, writesWith_concat]
  exact (List.append_nil _).trans (writesWith_eq_nil (fun o => by cases o <;> rfl) ms)

end Concat

/-! ## Commits that may fail -/

/-- A transaction has a statement for each row and one more, and it fails if one of them does. -/
lemma transact_some (k : Nat) (rows : List (Key × Entry)) (t : Snapshot) :
    transact (some k) rows t =
      if k ≤ rows.length then .error .database else .ok (t.insertAll rows) := by
  induction rows generalizing k t with
  | nil => cases k <;> rfl
  | cons row rest ih =>
    cases k with
    | zero => rfl
    | succ k => exact (ih k _).trans (if_congr Nat.succ_le_succ_iff.symm rfl rfl)

/-- Whether a commit has a statement of a number that is given: it has one for each row of the
buffer and another that ends the transaction, but none if there are no rows. -/
def HasStatement (x : DurableIndex) (number : Option Nat) : Prop :=
  x.pending.rows ≠ [] ∧ ∃ k ∈ number, k ≤ x.pending.rows.length

section Commits

variable {x : DurableIndex} {failsAt : Option Nat}

lemma commit_of_hasStatement (h : x.HasStatement failsAt) :
    x.commit failsAt = (some .database, x) := by
  obtain ⟨hrows, k, hk, hle⟩ := h
  obtain rfl : failsAt = some k := hk
  rw [commit, if_neg (mt List.isEmpty_iff.1 hrows), transact_some, if_pos hle]

lemma commit_of_not_hasStatement (h : ¬ x.HasStatement failsAt) :
    x.commit failsAt = x.commit none := by
  by_cases hrows : x.pending.rows = []
  · rw [commit, commit, if_pos (List.isEmpty_iff.2 hrows), if_pos (List.isEmpty_iff.2 hrows)]
  · cases failsAt with
    | none => rfl
    | some k =>
      have hlt : ¬ k ≤ x.pending.rows.length := fun hle => h ⟨hrows, k, rfl, hle⟩
      rw [commit, commit, transact_some, if_neg hlt, transact_none]

end Commits

/-- A commit stores the whole buffer, or it fails and changes nothing. -/
lemma commit_cases (x : DurableIndex) (failsAt : Option Nat) :
    x.commit failsAt = x.commit none ∨ ∃ e, x.commit failsAt = (some e, x) := by
  by_cases h : x.HasStatement failsAt
  · exact Or.inr ⟨_, commit_of_hasStatement h⟩
  · exact Or.inl (commit_of_not_hasStatement h)

/-! ## Histories -/

/-- What can be done with an index in a table. -/
inductive Handling
  | write (w : Write)
  /-- A commit; with a number given, the statement of that number fails. -/
  | commit (failsAt : Option Nat)
  /-- A refresh of the readers.  It begins with a commit, and it can also fail after that. -/
  | refreshReaders (failsAt : Option Nat) (unshown : Bool)
  | reopen

/-- Do something with an index. -/
def handle (x : DurableIndex) : Handling → Option Failure × DurableIndex
  | .write w => (none, x.write w.mode w.key w.entry)
  | .commit failsAt => x.commit failsAt
  | .refreshReaders failsAt false => x.refresh failsAt
  | .refreshReaders failsAt true =>
    let (outcome, x) := x.commit failsAt
    (outcome.or (some .database), x)
  | .reopen => (none, x.reopen)

/-- What becomes of an index. -/
def run (x : DurableIndex) (hs : List Handling) : DurableIndex :=
  hs.foldl (fun x h => (x.handle h).2) x

/-- What has happened to an index, if something is done with it. -/
def mark (x : DurableIndex) : Handling → Mark
  | .write w => .written w
  | .commit failsAt => (x.commit failsAt).1.elim .committed fun _ => .failed
  | .refreshReaders failsAt _ => (x.commit failsAt).1.elim .committed fun _ => .failed
  | .reopen => .closed

/-- A commit fails if one of its statements does, and otherwise it ends well. -/
lemma mark_eq_failed_iff {x : DurableIndex} {failsAt : Option Nat} :
    x.mark (.commit failsAt) = .failed ↔ x.HasStatement failsAt := by
  by_cases h : x.HasStatement failsAt
  · rw [mark, commit_of_hasStatement h]
    exact iff_of_true rfl h
  · rw [mark, commit_of_not_hasStatement h, commit_none]
    exact iff_of_false (fun hfailed => by cases hfailed) h

/-- What has happened to an index in the course of a history. -/
def marks (x : DurableIndex) : List Handling → List Mark
  | [] => []
  | h :: rest => x.mark h :: marks (x.handle h).2 rest

/-- The ways in which something can be done with an index: a commit or a refresh stores the buffer,
or it fails and changes nothing. -/
lemma handle_cases (x : DurableIndex) (a : Handling) :
    (∃ w, a = .write w) ∨ a = .reopen ∨
      (x.mark a = .committed ∧ (x.handle a).2.stored = (x.commit none).2.stored ∧
        (x.handle a).2.pending = (x.commit none).2.pending) ∨
      x.mark a = .failed ∧ (x.handle a).1 ≠ none ∧ (x.handle a).2 = x := by
  cases a with
  | write w => exact Or.inl ⟨w, rfl⟩
  | reopen => exact Or.inr (Or.inl rfl)
  | commit failsAt =>
    refine Or.inr (Or.inr ?_)
    rcases x.commit_cases failsAt with heq | ⟨e, he⟩
    · rw [mark, handle, heq, commit_none]
      exact Or.inl ⟨rfl, rfl, rfl⟩
    · rw [mark, handle, he]
      exact Or.inr ⟨rfl, Option.some_ne_none e, rfl⟩
  | refreshReaders failsAt unshown =>
    refine Or.inr (Or.inr ?_)
    rcases x.commit_cases failsAt with heq | ⟨e, he⟩
    · refine Or.inl ?_
      cases unshown with
      | false =>
        rw [mark, handle, refresh, heq, commit_none]
        exact ⟨rfl, rfl, rfl⟩
      | true =>
        rw [mark, handle, heq, commit_none]
        exact ⟨rfl, rfl, rfl⟩
    · refine Or.inr ?_
      cases unshown with
      | false =>
        rw [mark, handle, refresh, he]
        exact ⟨rfl, Option.some_ne_none e, rfl⟩
      | true =>
        rw [mark, handle, he]
        exact ⟨rfl, Option.some_ne_none e, rfl⟩

lemma run_concat (x : DurableIndex) (hs : List Handling) (h : Handling) :
    x.run (hs ++ [h]) = ((x.run hs).handle h).2 := by
  rw [run, List.foldl_append]
  rfl

lemma marks_concat (x : DurableIndex) (hs : List Handling) (h : Handling) :
    x.marks (hs ++ [h]) = x.marks hs ++ [(x.run hs).mark h] := by
  induction hs generalizing x with
  | nil => rfl
  | cons first rest ih => exact congrArg _ (ih _)

/-- The table holds the committed writes, and with the open ones what a write finds. -/
structure Holds (x : DurableIndex) (ms : List Mark) : Prop where
  stored_eq : x.stored = Snapshot.writeAll Table.empty (durable ms)
  current?_eq : x.current? = (Snapshot.writeAll Table.empty (durable ms ++ unsettled ms)).get?

namespace Holds

variable {x : DurableIndex} {ms : List Mark}

lemma start : (openOn Table.empty).Holds [] := ⟨rfl, rfl⟩

/-- Only the table and the buffer matter. -/
lemma congr {x' : DurableIndex} (h : x.Holds ms) (hstored : x'.stored = x.stored)
    (hpending : x'.pending = x.pending) : x'.Holds ms where
  stored_eq := hstored.trans h.stored_eq
  current?_eq := by
    rw [← h.current?_eq]
    funext key
    rw [current?, current?, hstored, hpending]

lemma write (h : x.Holds ms) (w : Write) :
    (x.write w.mode w.key w.entry).Holds (ms ++ [.written w]) where
  stored_eq := by
    rw [durable_concat_written]
    exact h.stored_eq
  current?_eq := by
    funext key
    rw [current?_write, h.current?_eq, durable_concat_written, unsettled_concat_written,
      ← List.append_assoc, Snapshot.get?_writeAll_concat]

/-- A commit stores what writes find. -/
lemma stored_commit (h : x.Holds ms) : (x.commit none).2.stored =
    Snapshot.writeAll Table.empty (durable ms ++ unsettled ms) := by
  refine Table.ext_get? fun key => ?_
  rw [DurableIndex.stored_commit, h.current?_eq]

lemma commit (h : x.Holds ms) : (x.commit none).2.Holds (ms ++ [.committed]) where
  stored_eq := by rw [durable_concat_committed, h.stored_commit]
  current?_eq := by
    rw [current?_commit, h.current?_eq, durable_concat_committed, unsettled_concat_committed,
      List.append_nil]

/-- A commit that fails settles nothing. -/
lemma failed (h : x.Holds ms) : x.Holds (ms ++ [.failed]) := by
  obtain ⟨hstored, hcurrent⟩ := h
  constructor
  · rwa [durable_concat_failed]
  · rwa [durable_concat_failed, unsettled_concat_failed]

lemma reopen (h : x.Holds ms) : x.reopen.Holds (ms ++ [.closed]) where
  stored_eq := by
    rw [durable_concat_closed]
    exact h.stored_eq
  current?_eq := by
    rw [durable_concat_closed, unsettled_concat_closed, List.append_nil, ← h.stored_eq]
    rfl

lemma handle (h : x.Holds ms) (a : Handling) : (x.handle a).2.Holds (ms ++ [x.mark a]) := by
  rcases x.handle_cases a with
    ⟨w, rfl⟩ | rfl | ⟨hmark, hstored, hpending⟩ | ⟨hmark, -, hsame⟩
  · exact h.write w
  · exact h.reopen
  · rw [hmark]
    exact h.commit.congr hstored hpending
  · rw [hmark, hsame]
    exact h.failed

lemma run (hs : List Handling) :
    ((openOn Table.empty).run hs).Holds ((openOn Table.empty).marks hs) := by
  induction hs using List.reverseRecOn with
  | nil => exact start
  | append_singleton hs a ih =>
    rw [run_concat, marks_concat]
    exact ih.handle a

end Holds

/-- **What an index in a table keeps.**  A new index is written, committed, shown to its readers,
closed and opened again in any order, and any commit may fail at any statement.  Then the table is
what the writes that were followed by a commit before the next closing make of the empty one, and a
write finds what these make together with the writes that are still open.  A commit, which a refresh
begins with, fails if one of its statements does, and otherwise it ends well.  If it fails it leaves
the table and the buffer as they were; if it ends well it stores all that a write would have found,
so also what a failed one would have stored.  After the index is closed an upsert merges with
committed rows alone. -/
theorem stored_run (hs : List Handling) :
    let x := (openOn Table.empty).run hs
    let ms := (openOn Table.empty).marks hs
    x.stored = Snapshot.writeAll Table.empty (durable ms) ∧
      x.current? = (Snapshot.writeAll Table.empty (durable ms ++ unsettled ms)).get? ∧
      (∀ failsAt, (x.mark (.commit failsAt) = .failed ↔ x.HasStatement failsAt) ∧
        ∀ unshown, x.mark (.refreshReaders failsAt unshown) = .failed ↔ x.HasStatement failsAt) ∧
      (∀ a, x.mark a = .failed → (x.handle a).1 ≠ none ∧ (x.handle a).2 = x) ∧
      (∀ a, x.mark a = .committed →
        (x.handle a).2.stored = Snapshot.writeAll Table.empty (durable ms ++ unsettled ms)) ∧
      ∀ key e, (x.reopen.write .upsert key e).pending.get? key =
        some (Entry.mergeInto ((Snapshot.writeAll Table.empty (durable ms)).get? key) e) := by
  intro x ms
  have holds : x.Holds ms := Holds.run hs
  refine ⟨holds.stored_eq, holds.current?_eq, fun failsAt =>
    ⟨mark_eq_failed_iff, fun unshown => mark_eq_failed_iff⟩, fun a hfailed => ?_,
    fun a hcommitted => ?_, fun key e => ?_⟩
  · rcases x.handle_cases a with ⟨w, rfl⟩ | rfl | ⟨hmark, -⟩ | ⟨-, hunchanged⟩
    · cases hfailed
    · cases hfailed
    · cases hfailed.symm.trans hmark
    · exact hunchanged
  · rcases x.handle_cases a with ⟨w, rfl⟩ | rfl | ⟨-, hstored, -⟩ | ⟨hmark, -⟩
    · cases hcommitted
    · cases hcommitted
    · rw [hstored, holds.stored_commit]
    · cases hcommitted.symm.trans hmark
  · rw [← holds.stored_eq]
    exact (Table.get?_insert _ _ _ _).trans (if_pos rfl)

/-- A merge is asked for, its commit fails, and the next one ends well.  What is merged after that
is dropped when the index is closed. -/
example : ((openOn Table.empty).run [.write ⟨.upsert, [1], ⟨7, 10, 20⟩⟩, .commit (some 1),
    .write ⟨.upsert, [1], ⟨8, 5, 12⟩⟩, .refreshReaders none true, .write ⟨.upsert, [1], ⟨9, 0, 99⟩⟩,
    .reopen, .write ⟨.upsert, [1], ⟨6, 15, 30⟩⟩, .commit none]).stored.get? [1] =
    some ⟨6, 5, 30⟩ := by
  decide +kernel

end DurableIndex

end ShardIndex
