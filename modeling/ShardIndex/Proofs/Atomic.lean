import ShardIndex.Proofs.Lawful

/-!
# Indexes in which a failure leaves no trace

A lawful index says what its requests do when they end well.  An atomic one also says what they
leave alone: a write that fails changes no entry, and nothing can be seen from outside (in what is
committed, in what readers see, or in the tally of how often that was renewed) but by a commit or a
refresh of the readers.

All the indexes are atomic.  So is an index under observation (`Monitored`), in which any call can
be made to fail.
-/

namespace ShardIndex

/-- A lawful index in which a failure leaves no trace. -/
class AtomicIndex (ι : Type) [Index ι] extends LawfulIndex ι where
  /-- How often what can be seen was renewed: the commits of an index in memory, the refreshes of the
  readers of one in a table. -/
  tally : ι → Nat
  /-- A write that fails changes no entry. -/
  current?_write_failed {x x' : ι} {mode : WriteMode} {key : Key} {e : Entry} {cause : Failure} :
    Index.perform x (.write mode key e) = (some cause, x') → current? x' = current? x
  /-- Readers see nothing of a write. -/
  unseen_write {x x' : ι} {mode : WriteMode} {key : Key} {e : Entry} {o : Option Failure} :
    Index.perform x (.write mode key e) = (o, x') → reader x' = reader x ∧ tally x' = tally x
  /-- Readers see nothing of a commit that fails. -/
  unseen_commit_failed {x x' : ι} {cause : Failure} :
    Index.perform x .commit = (some cause, x') → reader x' = reader x ∧ tally x' = tally x
  /-- Readers see nothing of an announcement. -/
  unseen_announce (x : ι) (e : Event) :
    reader (Index.announce x e) = reader x ∧ tally (Index.announce x e) = tally x
  /-- After a commit readers see what they saw, or what is committed. -/
  reader_commit {x x' : ι} {o : Option Failure} :
    Index.perform x .commit = (o, x') → reader x' = reader x ∨ reader x' = committed x'
  /-- After a refresh readers see what they saw, or what is committed. -/
  reader_refreshReaders_or {x x' : ι} {o : Option Failure} :
    Index.perform x .refreshReaders = (o, x') → reader x' = reader x ∨ reader x' = committed x'
  /-- A refresh of the readers commits all entries, or nothing. -/
  committed_refreshReaders_or {x x' : ι} {o : Option Failure} :
    Index.perform x .refreshReaders = (o, x') →
    committed x' = committed x ∨ (committed x').get? = current? x

/-! ## The indexes -/

instance : AtomicIndex VolatileIndex where
  tally := VolatileIndex.commits
  current?_write_failed h := by cases (Prod.mk.inj h).1
  unseen_write h := by
    obtain ⟨-, rfl⟩ := Prod.mk.inj h
    exact ⟨rfl, rfl⟩
  unseen_commit_failed h := by cases (Prod.mk.inj h).1
  unseen_announce _ _ := ⟨rfl, rfl⟩
  reader_commit h := by
    obtain ⟨-, rfl⟩ := Prod.mk.inj h
    exact Or.inl rfl
  reader_refreshReaders_or h := Or.inr (LawfulIndex.reader_refreshReaders (by
    obtain ⟨rfl, -⟩ := Prod.mk.inj h
    exact h))
  committed_refreshReaders_or {x x' o} h := by
    obtain ⟨-, rfl⟩ := Prod.mk.inj h
    show (x.refresh).committed = x.committed ∨ (x.refresh).committed.get? = x.writer.get?
    unfold VolatileIndex.refresh
    split
    · exact Or.inr rfl
    · exact Or.inl rfl

instance : AtomicIndex DurableIndex where
  tally := DurableIndex.generation
  current?_write_failed h := by cases (Prod.mk.inj h).1
  unseen_write h := by
    obtain ⟨-, rfl⟩ := Prod.mk.inj h
    exact ⟨rfl, rfl⟩
  unseen_commit_failed {x x' cause} h := by
    have hcommit := x.commit_none.symm.trans h
    cases (Prod.mk.inj hcommit).1
  unseen_announce _ _ := ⟨rfl, rfl⟩
  reader_commit _ := Or.inr rfl
  reader_refreshReaders_or _ := Or.inr rfl
  committed_refreshReaders_or {x x' o} h := by
    have hrefresh : x.refresh none = (o, x') := h
    rw [DurableIndex.refresh, x.commit_none] at hrefresh
    obtain ⟨-, rfl⟩ := Prod.mk.inj hrefresh
    exact Or.inr (funext fun k => Table.get?_overlay _ _ k)

instance : AtomicIndex TroubledIndex where
  tally x := x.inner.generation
  current?_write_failed h := by
    rcases TroubledIndex.write_cases h with ⟨hnone, -⟩ | ⟨-, hinner⟩
    · cases hnone
    · exact congrArg DurableIndex.current? hinner
  unseen_write h := by
    rcases TroubledIndex.write_cases h with ⟨-, hinner⟩ | ⟨-, hinner⟩
    · exact ⟨(congrArg DurableIndex.stored hinner).trans rfl,
        (congrArg DurableIndex.generation hinner).trans rfl⟩
    · exact ⟨congrArg DurableIndex.stored hinner, congrArg DurableIndex.generation hinner⟩
  unseen_commit_failed h := by
    rcases TroubledIndex.commit_cases h with ⟨hnone, -⟩ | ⟨-, hinner⟩
    · cases hnone
    · exact ⟨congrArg DurableIndex.stored hinner, congrArg DurableIndex.generation hinner⟩
  unseen_announce _ _ := ⟨rfl, rfl⟩
  reader_commit _ := Or.inr rfl
  reader_refreshReaders_or _ := Or.inr rfl
  committed_refreshReaders_or {x x' o} h := by
    obtain ⟨o', y, hcommit, hstored, -⟩ := TroubledIndex.refresh_cases h
    rcases TroubledIndex.commit_cases hcommit with ⟨-, hinner⟩ | ⟨-, hinner⟩
    · refine Or.inr ?_
      show x'.inner.stored.get? = x.inner.current?
      rw [hstored, hinner, DurableIndex.stored_commit]
    · exact Or.inl (hstored.trans (congrArg DurableIndex.stored hinner))

namespace AnyIndex

/-- How often what can be seen of an index was renewed. -/
def tally : AnyIndex → Nat
  | .volatile x => x.commits
  | .durable x => x.generation

end AnyIndex

instance : AtomicIndex AnyIndex where
  tally := AnyIndex.tally
  current?_write_failed h := by
    rcases AnyIndex.perform_cases h with ⟨y, y', rfl, rfl, hy⟩ | ⟨y, y', rfl, rfl, hy⟩
    · exact AtomicIndex.current?_write_failed hy
    · exact AtomicIndex.current?_write_failed hy
  unseen_write h := by
    rcases AnyIndex.perform_cases h with ⟨y, y', rfl, rfl, hy⟩ | ⟨y, y', rfl, rfl, hy⟩
    · exact AtomicIndex.unseen_write hy
    · exact AtomicIndex.unseen_write hy
  unseen_commit_failed h := by
    rcases AnyIndex.perform_cases h with ⟨y, y', rfl, rfl, hy⟩ | ⟨y, y', rfl, rfl, hy⟩
    · exact AtomicIndex.unseen_commit_failed hy
    · exact AtomicIndex.unseen_commit_failed hy
  unseen_announce x _ := by cases x <;> exact ⟨rfl, rfl⟩
  reader_commit h := by
    rcases AnyIndex.perform_cases h with ⟨y, y', rfl, rfl, hy⟩ | ⟨y, y', rfl, rfl, hy⟩
    · exact AtomicIndex.reader_commit hy
    · exact AtomicIndex.reader_commit hy
  reader_refreshReaders_or h := by
    rcases AnyIndex.perform_cases h with ⟨y, y', rfl, rfl, hy⟩ | ⟨y, y', rfl, rfl, hy⟩
    · exact AtomicIndex.reader_refreshReaders_or hy
    · exact AtomicIndex.reader_refreshReaders_or hy
  committed_refreshReaders_or h := by
    rcases AnyIndex.perform_cases h with ⟨y, y', rfl, rfl, hy⟩ | ⟨y, y', rfl, rfl, hy⟩
    · exact AtomicIndex.committed_refreshReaders_or hy
    · exact AtomicIndex.committed_refreshReaders_or hy

/-! ## Indexes under observation -/

namespace Monitored

variable {ι : Type}

/-- To look for a fault is nothing to the index. -/
lemma inner_intercept (m : Monitored ι) (c : Call) : (m.intercept c).2.inner = m.inner := by
  unfold intercept
  dsimp only
  split
  · rfl
  · split <;> rfl

variable [Index ι] {m m' : Monitored ι} {r : Request} {o : Option Failure}

/-- A request fails without reaching the index, or it is made of the index. -/
lemma perform_cases (h : Index.perform m r = (o, m')) :
    (o ≠ none ∧ m'.inner = m.inner) ∨ Index.perform m.inner r = (o, m'.inner) := by
  have hinner := m.inner_intercept (.request r)
  simp only [Index.perform] at h
  split at h
  · rename_i e y hy
    obtain ⟨rfl, rfl⟩ := Prod.mk.inj h
    rw [hy] at hinner
    exact Or.inl ⟨Option.some_ne_none e, hinner⟩
  · rename_i y hy
    obtain ⟨rfl, rfl⟩ := Prod.mk.inj h
    rw [hy] at hinner
    exact Or.inr (by rw [← hinner])

/-- A request that ends well is made of the index. -/
lemma perform_of_none (h : Index.perform m r = (none, m')) :
    Index.perform m.inner r = (none, m'.inner) := by
  rcases perform_cases h with ⟨hfails, -⟩ | hinner
  · exact absurd rfl hfails
  · exact hinner

/-- An announcement is lost, or it is made of the index. -/
lemma announce_cases (m : Monitored ι) (e : Event) :
    (Index.announce m e).inner = m.inner ∨
      (Index.announce m e).inner = Index.announce m.inner e := by
  have hinner := m.inner_intercept (.announcement e)
  simp only [Index.announce]
  split
  · rename_i cause y hy
    rw [hy] at hinner
    exact Or.inl hinner
  · rename_i y hy
    rw [hy] at hinner
    exact Or.inr (congrArg (Index.announce · e) hinner)

end Monitored

instance {ι : Type} [Index ι] [LawfulIndex ι] : LawfulIndex (Monitored ι) where
  current? m := LawfulIndex.current? m.inner
  committed m := LawfulIndex.committed m.inner
  reader m := LawfulIndex.reader m.inner
  current?_write h := LawfulIndex.current?_write (Monitored.perform_of_none h)
  committed_write h := by
    rcases Monitored.perform_cases h with ⟨-, hinner⟩ | hinner
    · rw [hinner]
    · exact LawfulIndex.committed_write hinner
  current?_commit h := by
    rcases Monitored.perform_cases h with ⟨-, hinner⟩ | hinner
    · rw [hinner]
    · exact LawfulIndex.current?_commit hinner
  committed_commit h := LawfulIndex.committed_commit (Monitored.perform_of_none h)
  committed_commit_failed h := by
    rcases Monitored.perform_cases h with ⟨-, hinner⟩ | hinner
    · rw [hinner]
    · exact LawfulIndex.committed_commit_failed hinner
  current?_refreshReaders h := by
    rcases Monitored.perform_cases h with ⟨-, hinner⟩ | hinner
    · rw [hinner]
    · exact LawfulIndex.current?_refreshReaders hinner
  committed_refreshReaders h hx := by
    rcases Monitored.perform_cases h with ⟨-, hinner⟩ | hinner
    · rw [hinner]
    · exact LawfulIndex.committed_refreshReaders hinner hx
  reader_refreshReaders h := LawfulIndex.reader_refreshReaders (Monitored.perform_of_none h)
  current?_announce m e := by
    rcases m.announce_cases e with hinner | hinner
    · rw [hinner]
    · rw [hinner, LawfulIndex.current?_announce]
  committed_announce m e := by
    rcases m.announce_cases e with hinner | hinner
    · rw [hinner]
    · rw [hinner, LawfulIndex.committed_announce]

namespace Monitored

variable {ι : Type} [Index ι] [LawfulIndex ι]

/-! Observation adds nothing to what is in an index. -/

lemma current?_eq (m : Monitored ι) : LawfulIndex.current? m = LawfulIndex.current? m.inner := rfl

lemma committed_eq (m : Monitored ι) : LawfulIndex.committed m = LawfulIndex.committed m.inner :=
  rfl

lemma reader_eq (m : Monitored ι) : LawfulIndex.reader m = LawfulIndex.reader m.inner := rfl

end Monitored

instance {ι : Type} [Index ι] [AtomicIndex ι] : AtomicIndex (Monitored ι) where
  tally m := AtomicIndex.tally m.inner
  current?_write_failed h := by
    rw [Monitored.current?_eq, Monitored.current?_eq]
    rcases Monitored.perform_cases h with ⟨-, hinner⟩ | hinner
    · rw [hinner]
    · exact AtomicIndex.current?_write_failed hinner
  unseen_write h := by
    rw [Monitored.reader_eq, Monitored.reader_eq]
    rcases Monitored.perform_cases h with ⟨-, hinner⟩ | hinner
    · rw [hinner]
      exact ⟨rfl, rfl⟩
    · exact AtomicIndex.unseen_write hinner
  unseen_commit_failed h := by
    rw [Monitored.reader_eq, Monitored.reader_eq]
    rcases Monitored.perform_cases h with ⟨-, hinner⟩ | hinner
    · rw [hinner]
      exact ⟨rfl, rfl⟩
    · exact AtomicIndex.unseen_commit_failed hinner
  unseen_announce m e := by
    rw [Monitored.reader_eq, Monitored.reader_eq]
    rcases m.announce_cases e with hinner | hinner
    · rw [hinner]
      exact ⟨rfl, rfl⟩
    · rw [hinner]
      exact AtomicIndex.unseen_announce m.inner e
  reader_commit h := by
    rw [Monitored.reader_eq, Monitored.reader_eq, Monitored.committed_eq]
    rcases Monitored.perform_cases h with ⟨-, hinner⟩ | hinner
    · rw [hinner]
      exact Or.inl rfl
    · exact AtomicIndex.reader_commit hinner
  reader_refreshReaders_or h := by
    rw [Monitored.reader_eq, Monitored.reader_eq, Monitored.committed_eq]
    rcases Monitored.perform_cases h with ⟨-, hinner⟩ | hinner
    · rw [hinner]
      exact Or.inl rfl
    · exact AtomicIndex.reader_refreshReaders_or hinner
  committed_refreshReaders_or h := by
    rw [Monitored.committed_eq, Monitored.committed_eq, Monitored.current?_eq]
    rcases Monitored.perform_cases h with ⟨-, hinner⟩ | hinner
    · rw [hinner]
      exact Or.inl rfl
    · exact AtomicIndex.committed_refreshReaders_or hinner

end ShardIndex
