import ShardIndex.Proofs.Leftovers

/-!
# The views of an index

An index has three views: the entries that the next write finds, those that are committed, and those
that readers see.  A write changes the first by its row; a commit or a refresh of the readers puts
one view in the place of another.  So what holds in each view and is kept when a row is written goes
on holding in each (`World.Evolves.inEachView`), whatever a call does and however it ends
(`inEachView_of_run`).
-/

namespace ShardIndex

/-- Entries by key, after a row is written. -/
def WriteMode.update (mode : WriteMode) (g : Key → Option Entry) (key : Key) (e : Entry) :
    Key → Option Entry :=
  fun k => if k = key then some (mode.apply (g key) e) else g k

/-- Whether something holds of the entries that the next write finds, of those that are committed,
and of those that readers see. -/
structure InEachView {ι : Type} [Index ι] [LawfulIndex ι] (P : (Key → Option Entry) → Prop)
    (x : ι) : Prop where
  current : P (LawfulIndex.current? x)
  committed : P (LawfulIndex.committed x).get?
  reader : P (LawfulIndex.reader x).get?

section Views

variable {ι : Type} [Index ι] [LawfulIndex ι] {P Q : (Key → Option Entry) → Prop} {x x' : ι}

lemma InEachView.mono (h : InEachView P x) (hPQ : ∀ g, P g → Q g) : InEachView Q x :=
  ⟨hPQ _ h.current, hPQ _ h.committed, hPQ _ h.reader⟩

/-- What holds in each view holds there still when all entries are committed, or none, and readers
see what is committed, or what they saw. -/
lemma InEachView.renew (h : InEachView P x)
    (hcurrent : LawfulIndex.current? x' = LawfulIndex.current? x)
    (hcommitted : LawfulIndex.committed x' = LawfulIndex.committed x ∨
      (LawfulIndex.committed x').get? = LawfulIndex.current? x)
    (hreader : LawfulIndex.reader x' = LawfulIndex.reader x ∨
      LawfulIndex.reader x' = LawfulIndex.committed x') : InEachView P x' := by
  have committed : P (LawfulIndex.committed x').get? := by
    rcases hcommitted with hkept | hall
    · rw [hkept]
      exact h.committed
    · rw [hall]
      exact h.current
  refine ⟨by rw [hcurrent]; exact h.current, committed, ?_⟩
  rcases hreader with hkept | hrenewed
  · rw [hkept]
    exact h.reader
  · rw [hrenewed]
    exact committed

end Views

namespace Bootstrap

open Identity RecordStream

namespace World

variable {ρ ι : Type} [Resolver ρ] [Index ι] [AtomicIndex ι]
variable {w w' : World ρ ι} {a : Action} {j : List Action} {P : (Key → Option Entry) → Prop}

/-- A write that ends well changes what the next one finds, and nothing else is changed by it. -/
lemma Acts.inEachView_of_write {mode : WriteMode} {key : Key} {e : Entry} {o : Option Failure}
    (h : w.Acts (.requested (.write mode key e) o) w')
    (hupdate : ∀ g, P g → P (mode.update g key e)) (hs : InEachView P w.index) :
    InEachView P w'.index := by
  have carriedOut := h.perform
  refine ⟨?_, ?_, ?_⟩
  · cases o with
    | none =>
      have after : LawfulIndex.current? w'.index =
          mode.update (LawfulIndex.current? w.index) key e :=
        funext (LawfulIndex.current?_write carriedOut)
      rw [after]
      exact hupdate _ hs.current
    | some cause =>
      rw [AtomicIndex.current?_write_failed carriedOut]
      exact hs.current
  · rw [LawfulIndex.committed_write carriedOut]
    exact hs.committed
  · rw [(AtomicIndex.unseen_write carriedOut).1]
    exact hs.reader

lemma Acts.inEachView (h : w.Acts a w')
    (hupdate : ∀ mode key e o, a = .requested (.write mode key e) o →
      ∀ g, P g → P (mode.update g key e)) (hs : InEachView P w.index) :
    InEachView P w'.index := by
  cases a with
  | consulted record answer =>
    cases h
    exact hs
  | announced e =>
    cases h
    exact hs.renew (LawfulIndex.current?_announce _ e) (Or.inl (LawfulIndex.committed_announce _ e))
      (Or.inl (AtomicIndex.unseen_announce _ e).1)
  | requested request o =>
    cases request with
    | write mode key e => exact h.inEachView_of_write (hupdate mode key e o rfl) hs
    | commit =>
      have carriedOut := h.perform
      refine hs.renew (LawfulIndex.current?_commit carriedOut) ?_
        (AtomicIndex.reader_commit carriedOut)
      cases o with
      | none => exact Or.inr (LawfulIndex.committed_commit carriedOut)
      | some cause => exact Or.inl (LawfulIndex.committed_commit_failed carriedOut)
    | refreshReaders =>
      have carriedOut := h.perform
      exact hs.renew (LawfulIndex.current?_refreshReaders carriedOut)
        (AtomicIndex.committed_refreshReaders_or carriedOut)
        (AtomicIndex.reader_refreshReaders_or carriedOut)

/-- What holds in each view, and is kept when a row of a journal is written, holds there still when
all of it has happened. -/
theorem Evolves.inEachView (h : w.Evolves j w')
    (hupdate : ∀ mode key e o, .requested (.write mode key e) o ∈ j →
      ∀ g, P g → P (mode.update g key e)) (hs : InEachView P w.index) :
    InEachView P w'.index := by
  induction h with
  | refl => exact hs
  | concat _ hact ih =>
    refine hact.inEachView (fun mode key e o ha => ?_)
      (ih fun mode key e o ha => hupdate mode key e o (List.mem_append_left _ ha))
    exact hupdate mode key e o (List.mem_append_right _ (List.mem_singleton.2 ha.symm))

end World

/-! ## Calls -/

lemma Conclusion.isIn {complete : Option Int} {result : Except Failure Nat} {tail : List Action}
    (h : Conclusion complete result tail) (mode : WriteMode) : ∀ a ∈ tail, a.IsIn mode := by
  cases h with
  | unwritten => exact List.forall_mem_nil _
  | uncommitted => exact List.forall_mem_singleton.2 trivial
  | unshown => cases complete <;> simp [Action.IsIn]
  | shown => cases complete <;> simp [Action.IsIn]

/-- Every row that a call writes, however it ends, is made from a record of its streams. -/
lemma Account.exists_mem_of_mem_written {mode : WriteMode} {records : List Record}
    {failures : List Failure} {outcome : Except Failure Nat} {tales : List Tale} {j : List Action}
    (h : Account mode records failures outcome tales j) {row : Key × Entry}
    (hrow : row ∈ written j) : ∃ r ∈ records, ∃ n, row = (r.key, r.entry n) := by
  obtain ⟨r, n, hasked, rfl⟩ := mem_granted_iff.1 ((h.covered j (List.prefix_refl j)).subset hrow)
  exact ⟨r, h.consulted_subperm.subset (mem_consulted_iff.2 ⟨_, hasked⟩), n, rfl⟩

/-- What holds in each view, and is kept when a row for a record of the streams of a call is
written, holds there still after the call, whatever comes of it. -/
theorem inEachView_of_run {σ ρ ι : Type} [ColumnStore σ] [Resolver ρ] [Index ι] [AtomicIndex ι]
    {strategy : Strategy} {settings : Settings} {schemas : Schema.Registry} {store : σ}
    {shard : Shard} {schedule : List Choice} {w w' : World ρ ι} {result : Except Failure Nat}
    {P : (Key → Option Entry) → Prop}
    (hrun : strategy.run settings schemas store shard schedule w = (result, w'))
    (hupdate : ∀ r ∈ recordsOf (strategy.streams settings schemas store shard), ∀ n g,
      P g → P (strategy.mode.update g r.key (r.entry n))) (hs : InEachView P w.index) :
    InEachView P w'.index := by
  by_cases hordered : strategy.IsOrdered
  · obtain ⟨written?, tales, j, tail, course⟩ :=
      exists_course hordered settings schemas store shard schedule w
    rw [hrun] at course
    refine course.evolves.inEachView (fun mode key e o ha => ?_) hs
    have hrow : (key, e) ∈ written ([.announced ⟨.refreshing, strategy.opensAt settings⟩] ++ j ++
      tail) := List.mem_filterMap.2 ⟨_, ha, rfl⟩
    rw [course.views_eq.2.2] at hrow
    obtain ⟨r, hr, n, hmade⟩ := course.account.exists_mem_of_mem_written hrow
    obtain ⟨rfl, rfl⟩ := Prod.mk.inj hmade
    have hmode : mode = strategy.mode := by
      rcases List.mem_append.1 ha with ha | ha
      · rcases List.mem_cons.1 ha with ha | ha
        · cases ha
        · exact course.account.writes _ ha
      · exact course.conclusion.isIn strategy.mode _ ha
    exact hmode ▸ hupdate r hr n
  · obtain ⟨a, b, hplan⟩ := Strategy.exists_plan_eq_error settings schemas store shard hordered
    rw [Strategy.run, hplan] at hrun
    obtain ⟨-, rfl⟩ := Prod.mk.inj hrun
    exact hs

end Bootstrap

end ShardIndex
