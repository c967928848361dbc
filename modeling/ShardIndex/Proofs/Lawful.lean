import ShardIndex.Index.Monitored
import ShardIndex.Index.Troubled
import ShardIndex.Proofs.Rows
import Mathlib.Tactic.Lemma

/-!
# Lawful indexes

Statements about contents need three things of an index: the entry that a write for a key would
find, what is committed, and what readers see.  A `LawfulIndex` says how requests change them; the
index in memory, the one in a table, the choice between them and the one with troubles ahead all
are lawful.
-/

namespace ShardIndex

/-- The entry of a key after a write. -/
def WriteMode.apply (mode : WriteMode) (existing : Option Entry) (entry : Entry) : Entry :=
  match mode with
  | .add => entry
  | .upsert => Entry.mergeInto existing entry

lemma WriteMode.id_apply (mode : WriteMode) (existing : Option Entry) (entry : Entry) :
    (mode.apply existing entry).id = entry.id := by
  cases mode with
  | add => rfl
  | upsert => cases existing <;> rfl

/-- An index of which one can say what it holds. -/
class LawfulIndex (ι : Type) [Index ι] where
  /-- The entry of a key, for the next write. -/
  current? : ι → Key → Option Entry
  /-- What is committed. -/
  committed : ι → Snapshot
  /-- What readers see. -/
  reader : ι → Snapshot
  /-- A write that succeeds changes the entry of its key. -/
  current?_write {x x' : ι} {mode : WriteMode} {key : Key} {e : Entry} :
    Index.perform x (.write mode key e) = (none, x') →
    ∀ k, current? x' k = if k = key then some (mode.apply (current? x key) e) else current? x k
  /-- A write commits nothing. -/
  committed_write {x x' : ι} {mode : WriteMode} {key : Key} {e : Entry} {o : Option Failure} :
    Index.perform x (.write mode key e) = (o, x') → committed x' = committed x
  /-- A commit changes no entry. -/
  current?_commit {x x' : ι} {o : Option Failure} :
    Index.perform x .commit = (o, x') → current? x' = current? x
  /-- A commit that succeeds commits all entries. -/
  committed_commit {x x' : ι} :
    Index.perform x .commit = (none, x') → (committed x').get? = current? x
  /-- A commit that fails commits nothing. -/
  committed_commit_failed {x x' : ι} {e : Failure} :
    Index.perform x .commit = (some e, x') → committed x' = committed x
  /-- A refresh of the readers changes no entry. -/
  current?_refreshReaders {x x' : ι} {o : Option Failure} :
    Index.perform x .refreshReaders = (o, x') → current? x' = current? x
  /-- A refresh of the readers after a commit changes nothing for writers. -/
  committed_refreshReaders {x x' : ι} {o : Option Failure} :
    Index.perform x .refreshReaders = (o, x') → (committed x).get? = current? x →
    committed x' = committed x
  /-- A refresh of the readers shows them what is committed. -/
  reader_refreshReaders {x x' : ι} :
    Index.perform x .refreshReaders = (none, x') → reader x' = committed x'
  /-- An announcement changes no entry. -/
  current?_announce (x : ι) (e : Event) : current? (Index.announce x e) = current? x
  /-- An announcement commits nothing. -/
  committed_announce (x : ι) (e : Event) : committed (Index.announce x e) = committed x

/-! ## The indexes -/

instance : LawfulIndex VolatileIndex where
  current? x := x.writer.get?
  committed := VolatileIndex.committed
  reader := VolatileIndex.reader
  current?_write h k := by
    obtain ⟨-, rfl⟩ := Prod.mk.inj h
    exact Table.get?_insert _ _ _ _
  committed_write h := by
    obtain ⟨-, rfl⟩ := Prod.mk.inj h
    rfl
  current?_commit h := by
    obtain ⟨-, rfl⟩ := Prod.mk.inj h
    rfl
  committed_commit h := by
    obtain ⟨-, rfl⟩ := Prod.mk.inj h
    rfl
  committed_commit_failed h := by cases (Prod.mk.inj h).1
  current?_refreshReaders {x x' o} h := by
    obtain ⟨-, rfl⟩ := Prod.mk.inj h
    show (x.refresh).writer.get? = x.writer.get?
    unfold VolatileIndex.refresh
    split <;> rfl
  committed_refreshReaders {x x' o} h hx := by
    obtain ⟨-, rfl⟩ := Prod.mk.inj h
    -- whatever is still to be committed has been committed before
    have same : x.writer = x.committed := Table.ext_get? fun k => (congrFun hx k).symm
    show (x.refresh).committed = x.committed
    unfold VolatileIndex.refresh
    split
    · exact same
    · rfl
  reader_refreshReaders h := by
    obtain ⟨-, rfl⟩ := Prod.mk.inj h
    rfl
  current?_announce _ _ := rfl
  committed_announce _ _ := rfl

namespace DurableIndex

/-- The entry of a key: the buffered one, or else the stored one. -/
def current? (x : DurableIndex) (key : Key) : Option Entry :=
  (x.pending.get? key).or (x.stored.get? key)

lemma current?_write (x : DurableIndex) (mode : WriteMode) (key : Key) (e : Entry) (k : Key) :
    (x.write mode key e).current? k =
      if k = key then some (mode.apply (x.current? key) e) else x.current? k := by
  cases mode <;> by_cases hk : k = key <;> simp [current?, write, WriteMode.apply, hk]

lemma transact_none (rows : List (Key × Entry)) (t : Snapshot) :
    transact none rows t = .ok (t.insertAll rows) := by
  induction rows generalizing t with
  | nil => rfl
  | cons row rest ih => exact ih _

lemma commit_none (x : DurableIndex) :
    x.commit none =
      (none, { x with stored := x.stored.overlay x.pending, pending := Table.empty }) := by
  unfold commit
  split
  · rename_i h
    rw [List.isEmpty_iff] at h
    obtain ⟨stored, ⟨rows, ascending⟩, generation, announcer⟩ := x
    obtain rfl : rows = [] := h
    rfl
  · rw [transact_none]
    rfl

lemma current?_commit (x : DurableIndex) : (x.commit none).2.current? = x.current? := by
  funext k
  rw [commit_none]
  exact Table.get?_overlay _ _ _

lemma stored_commit (x : DurableIndex) : (x.commit none).2.stored.get? = x.current? := by
  funext k
  rw [commit_none]
  exact Table.get?_overlay _ _ _

end DurableIndex

instance : LawfulIndex DurableIndex where
  current? := DurableIndex.current?
  committed := DurableIndex.stored
  reader := DurableIndex.stored
  current?_write h k := by
    obtain ⟨-, rfl⟩ := Prod.mk.inj h
    exact DurableIndex.current?_write _ _ _ _ _
  committed_write h := by
    obtain ⟨-, rfl⟩ := Prod.mk.inj h
    rfl
  current?_commit {x x' o} h := by
    obtain rfl : (x.commit none).2 = x' := congrArg Prod.snd h
    exact x.current?_commit
  committed_commit {x x'} h := by
    obtain rfl : (x.commit none).2 = x' := congrArg Prod.snd h
    exact x.stored_commit
  committed_commit_failed {x x' e} h := by
    have hcommit := x.commit_none.symm.trans h
    cases (Prod.mk.inj hcommit).1
  current?_refreshReaders {x x' o} h := by
    have hrefresh : x.refresh none = (o, x') := h
    rw [DurableIndex.refresh, x.commit_none] at hrefresh
    obtain ⟨-, rfl⟩ := Prod.mk.inj hrefresh
    rw [← x.current?_commit, x.commit_none]
    rfl
  committed_refreshReaders {x x' o} h hx := by
    have hrefresh : x.refresh none = (o, x') := h
    rw [DurableIndex.refresh, x.commit_none] at hrefresh
    obtain ⟨-, rfl⟩ := Prod.mk.inj hrefresh
    refine Table.ext_get? fun k => ?_
    exact (Table.get?_overlay _ _ k).trans (congrFun hx k).symm
  reader_refreshReaders _ := rfl
  current?_announce _ _ := rfl
  committed_announce _ _ := rfl

namespace TroubledIndex

/-- A write is made as in the index without troubles, or it fails. -/
lemma write_cases {x x' : TroubledIndex} {mode : WriteMode} {key : Key} {e : Entry}
    {o : Option Failure} (h : x.write mode key e = (o, x')) :
    (o = none ∧ x'.inner = x.inner.write mode key e) ∨ (o ≠ none ∧ x'.inner = x.inner) := by
  unfold write at h
  dsimp only at h
  split at h
  · split at h
    · rename_i cause y hy
      obtain ⟨rfl, rfl⟩ := Prod.mk.inj h
      exact Or.inr ⟨Option.some_ne_none cause, congrArg (fun p => p.2.inner) hy.symm⟩
    · rename_i y hy
      obtain ⟨rfl, rfl⟩ := Prod.mk.inj h
      have hinner : x.inner = y.inner := congrArg (fun p => p.2.inner) hy
      exact Or.inl ⟨rfl, by rw [hinner]⟩
  · obtain ⟨rfl, rfl⟩ := Prod.mk.inj h
    exact Or.inl ⟨rfl, rfl⟩

/-- A commit is made as in the index without troubles, or it fails. -/
lemma commit_cases {x x' : TroubledIndex} {o : Option Failure} (h : x.commit = (o, x')) :
    (o = none ∧ x'.inner = (x.inner.commit none).2) ∨ (o ≠ none ∧ x'.inner = x.inner) := by
  unfold commit at h
  split at h
  · rename_i hempty
    obtain ⟨rfl, rfl⟩ := Prod.mk.inj h
    refine Or.inl ⟨rfl, ?_⟩
    rw [DurableIndex.commit, if_pos hempty]
  · split at h
    · rename_i cause y hy
      obtain ⟨rfl, rfl⟩ := Prod.mk.inj h
      exact Or.inr ⟨Option.some_ne_none cause, congrArg (fun p => p.2.inner) hy.symm⟩
    · rename_i y hy
      have hinner : x.inner = y.inner := congrArg (fun p => p.2.inner) hy
      rw [← hinner, DurableIndex.commit_none] at h
      obtain ⟨rfl, rfl⟩ := Prod.mk.inj h
      refine Or.inl ⟨rfl, ?_⟩
      rw [DurableIndex.commit_none]

/-- A refresh of the readers commits, and does nothing else to the tables. -/
lemma refresh_cases {x x' : TroubledIndex} {o : Option Failure} (h : x.refresh = (o, x')) :
    ∃ o' y, x.commit = (o', y) ∧ x'.inner.stored = y.inner.stored ∧
      x'.inner.current? = y.inner.current? := by
  unfold refresh at h
  split at h
  · rename_i cause y hy
    obtain ⟨-, rfl⟩ := Prod.mk.inj h
    exact ⟨_, _, hy, rfl, rfl⟩
  · rename_i y hy
    refine ⟨_, _, hy, ?_⟩
    split at h
    · rename_i cause z hz
      obtain ⟨-, rfl⟩ := Prod.mk.inj h
      have hinner : y.inner = z.inner := congrArg (fun p => p.2.inner) hz
      rw [hinner]
      exact ⟨rfl, rfl⟩
    · rename_i z hz
      obtain ⟨-, rfl⟩ := Prod.mk.inj h
      have hinner : y.inner = z.inner := congrArg (fun p => p.2.inner) hz
      rw [hinner]
      exact ⟨rfl, rfl⟩

end TroubledIndex

instance : LawfulIndex TroubledIndex where
  current? x := x.inner.current?
  committed x := x.inner.stored
  reader x := x.inner.stored
  current?_write h k := by
    rcases TroubledIndex.write_cases h with ⟨-, hinner⟩ | ⟨hfails, -⟩
    · rw [hinner]
      exact DurableIndex.current?_write _ _ _ _ _
    · exact absurd rfl hfails
  committed_write h := by
    rcases TroubledIndex.write_cases h with ⟨-, hinner⟩ | ⟨-, hinner⟩
    · rw [hinner]
      rfl
    · rw [hinner]
  current?_commit h := by
    rcases TroubledIndex.commit_cases h with ⟨-, hinner⟩ | ⟨-, hinner⟩
    · rw [hinner, DurableIndex.current?_commit]
    · rw [hinner]
  committed_commit h := by
    rcases TroubledIndex.commit_cases h with ⟨-, hinner⟩ | ⟨hfails, -⟩
    · rw [hinner, DurableIndex.stored_commit]
    · exact absurd rfl hfails
  committed_commit_failed h := by
    rcases TroubledIndex.commit_cases h with ⟨hnone, -⟩ | ⟨-, hinner⟩
    · cases hnone
    · rw [hinner]
  current?_refreshReaders h := by
    obtain ⟨o', y, hcommit, -, hcurrent⟩ := TroubledIndex.refresh_cases h
    refine hcurrent.trans ?_
    rcases TroubledIndex.commit_cases hcommit with ⟨-, hinner⟩ | ⟨-, hinner⟩
    · rw [hinner, DurableIndex.current?_commit]
    · rw [hinner]
  committed_refreshReaders {x x' o} h hx := by
    obtain ⟨o', y, hcommit, hstored, -⟩ := TroubledIndex.refresh_cases h
    refine hstored.trans ?_
    rcases TroubledIndex.commit_cases hcommit with ⟨-, hinner⟩ | ⟨-, hinner⟩
    · refine Table.ext_get? fun k => ?_
      rw [hinner, DurableIndex.stored_commit]
      exact (congrFun hx k).symm
    · rw [hinner]
  reader_refreshReaders _ := rfl
  current?_announce _ _ := rfl
  committed_announce _ _ := rfl

namespace AnyIndex

/-- The entry of a key, for the next write: what was written to the index in memory, or else what
is buffered or stored. -/
def current? : AnyIndex → Key → Option Entry
  | .volatile x, key => x.writer.get? key
  | .durable x, key => x.current? key

/-- A request is made of the index that was chosen. -/
lemma perform_cases {x x' : AnyIndex} {r : Request} {o : Option Failure}
    (h : Index.perform x r = (o, x')) :
    (∃ y y', x = volatile y ∧ x' = volatile y' ∧ Index.perform y r = (o, y')) ∨
      ∃ y y', x = durable y ∧ x' = durable y' ∧ Index.perform y r = (o, y') := by
  cases x with
  | volatile y =>
    obtain ⟨houtcome, rfl⟩ := Prod.mk.inj h
    exact Or.inl ⟨y, _, rfl, rfl, Prod.ext houtcome rfl⟩
  | durable y =>
    obtain ⟨houtcome, rfl⟩ := Prod.mk.inj h
    exact Or.inr ⟨y, _, rfl, rfl, Prod.ext houtcome rfl⟩

end AnyIndex

instance : LawfulIndex AnyIndex where
  current? := AnyIndex.current?
  committed := AnyIndex.committed
  reader := AnyIndex.reader
  current?_write h := by
    rcases AnyIndex.perform_cases h with ⟨y, y', rfl, rfl, hy⟩ | ⟨y, y', rfl, rfl, hy⟩
    · exact LawfulIndex.current?_write hy
    · exact LawfulIndex.current?_write hy
  committed_write h := by
    rcases AnyIndex.perform_cases h with ⟨y, y', rfl, rfl, hy⟩ | ⟨y, y', rfl, rfl, hy⟩
    · exact LawfulIndex.committed_write hy
    · exact LawfulIndex.committed_write hy
  current?_commit h := by
    rcases AnyIndex.perform_cases h with ⟨y, y', rfl, rfl, hy⟩ | ⟨y, y', rfl, rfl, hy⟩
    · exact LawfulIndex.current?_commit hy
    · exact LawfulIndex.current?_commit hy
  committed_commit h := by
    rcases AnyIndex.perform_cases h with ⟨y, y', rfl, rfl, hy⟩ | ⟨y, y', rfl, rfl, hy⟩
    · exact LawfulIndex.committed_commit hy
    · exact LawfulIndex.committed_commit hy
  committed_commit_failed h := by
    rcases AnyIndex.perform_cases h with ⟨y, y', rfl, rfl, hy⟩ | ⟨y, y', rfl, rfl, hy⟩
    · exact LawfulIndex.committed_commit_failed hy
    · exact LawfulIndex.committed_commit_failed hy
  current?_refreshReaders h := by
    rcases AnyIndex.perform_cases h with ⟨y, y', rfl, rfl, hy⟩ | ⟨y, y', rfl, rfl, hy⟩
    · exact LawfulIndex.current?_refreshReaders hy
    · exact LawfulIndex.current?_refreshReaders hy
  committed_refreshReaders h hx := by
    rcases AnyIndex.perform_cases h with ⟨y, y', rfl, rfl, hy⟩ | ⟨y, y', rfl, rfl, hy⟩
    · exact LawfulIndex.committed_refreshReaders hy hx
    · exact LawfulIndex.committed_refreshReaders hy hx
  reader_refreshReaders h := by
    rcases AnyIndex.perform_cases h with ⟨y, y', rfl, rfl, hy⟩ | ⟨y, y', rfl, rfl, hy⟩
    · exact LawfulIndex.reader_refreshReaders hy
    · exact LawfulIndex.reader_refreshReaders hy
  current?_announce x e := by
    cases x with
    | volatile x => rfl
    | durable x => rfl
  committed_announce x e := by
    cases x with
    | volatile x => rfl
    | durable x => rfl

end ShardIndex
