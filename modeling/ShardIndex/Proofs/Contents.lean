import ShardIndex.Proofs.Calls
import ShardIndex.Proofs.Lawful

/-!
# What a call leaves in an index

Over a journal of writes the entry of a key changes by the writes of that key alone, and nothing
is committed (`Evolves.current?_eq`, `Evolves.committed_eq`).  So a call commits all that it has
written, or nothing (`Course.committed_eq_or`), and if it ends well readers see what is committed
(`Course.contents_of_ok`).
-/

namespace ShardIndex

namespace Bootstrap

open Identity

/-! ## Contents over a journal -/

/-- The entry of a key after some writes. -/
def entryAfter (mode : WriteMode) (key : Key) (before : Option Entry)
    (rows : List (Key × Entry)) : Option Entry :=
  rows.foldl (fun o row => if row.1 = key then some (mode.apply o row.2) else o) before

lemma entryAfter_append (mode : WriteMode) (key : Key) (before : Option Entry)
    (rows rows' : List (Key × Entry)) :
    entryAfter mode key before (rows ++ rows') =
      entryAfter mode key (entryAfter mode key before rows) rows' :=
  List.foldl_append

/-- A key for which nothing was written has the entry it had. -/
lemma entryAfter_eq_of_forall_ne {mode : WriteMode} {key : Key} {rows : List (Key × Entry)}
    (h : ∀ row ∈ rows, row.1 ≠ key) (before : Option Entry) :
    entryAfter mode key before rows = before := by
  induction rows generalizing before with
  | nil => rfl
  | cons row rest ih =>
    obtain ⟨hrow, hrest⟩ := List.forall_mem_cons.1 h
    rw [entryAfter, List.foldl_cons, if_neg hrow]
    exact ih hrest before

/-- A key for which something was written has the id of one of its rows. -/
lemma exists_entryAfter {key : Key} {rows : List (Key × Entry)} (h : ∃ row ∈ rows, row.1 = key)
    (mode : WriteMode) (before : Option Entry) :
    ∃ e, entryAfter mode key before rows = some e ∧
      ∃ row ∈ rows, row.1 = key ∧ row.2.id = e.id := by
  induction rows generalizing before with
  | nil =>
    obtain ⟨row, hrow, -⟩ := h
    cases hrow
  | cons row rest ih =>
    rw [entryAfter, List.foldl_cons]
    by_cases hrest : ∃ other ∈ rest, other.1 = key
    · obtain ⟨e, he, other, hother, hkey, hid⟩ :=
        ih hrest (if row.1 = key then some (mode.apply before row.2) else before)
      exact ⟨e, he, other, List.mem_cons_of_mem _ hother, hkey, hid⟩
    · -- no later row is for the key, so this one decides
      have hothers : ∀ other ∈ rest, other.1 ≠ key := fun other hother hkey =>
        hrest ⟨other, hother, hkey⟩
      have hrow : row.1 = key := by
        obtain ⟨other, hother, hkey⟩ := h
        rcases List.mem_cons.1 hother with rfl | hother
        · exact hkey
        · exact absurd hkey (hothers other hother)
      rw [if_pos hrow]
      exact ⟨_, entryAfter_eq_of_forall_ne hothers _, row, List.mem_cons_self, hrow,
        (mode.id_apply _ _).symm⟩

/-- A row that is added stays, if no other has its key. -/
lemma entryAfter_add_of_mem {rows : List (Key × Entry)} (h : (rows.map Prod.fst).Nodup)
    {row : Key × Entry} (hrow : row ∈ rows) (before : Option Entry) :
    entryAfter .add row.1 before rows = some row.2 := by
  induction rows generalizing before with
  | nil => cases hrow
  | cons first rest ih =>
    obtain ⟨hfirst, hrest⟩ := List.nodup_cons.1 h
    rw [entryAfter, List.foldl_cons]
    rcases List.mem_cons.1 hrow with rfl | hrow
    · rw [if_pos rfl]
      refine entryAfter_eq_of_forall_ne (fun other hother hkey => hfirst ?_) _
      rw [← hkey]
      exact List.mem_map_of_mem hother
    · exact ih hrest hrow _

/-- Whether all that a journal asks of the index are writes. -/
def OnlyWrites (j : List Action) : Prop :=
  ∀ r o, .requested r o ∈ j → ∃ mode key e, r = .write mode key e

/-- Whether all that a journal asks of the index are writes in some mode, and all end well. -/
def Wrote (mode : WriteMode) (j : List Action) : Prop :=
  ∀ r o, .requested r o ∈ j → o = none ∧ ∃ key e, r = .write mode key e

lemma OnlyWrites.of_append {j j' : List Action} (h : OnlyWrites (j ++ j')) :
    OnlyWrites j ∧ OnlyWrites j' :=
  ⟨fun r o ha => h r o (List.mem_append_left _ ha),
    fun r o ha => h r o (List.mem_append_right _ ha)⟩

lemma Wrote.of_append {mode : WriteMode} {j j' : List Action} (h : Wrote mode (j ++ j')) :
    Wrote mode j ∧ Wrote mode j' :=
  ⟨fun r o ha => h r o (List.mem_append_left _ ha),
    fun r o ha => h r o (List.mem_append_right _ ha)⟩

namespace World

variable {ρ ι : Type} [Resolver ρ] [Index ι] [LawfulIndex ι]
variable {w w' : World ρ ι} {mode : WriteMode} {a : Action} {j : List Action}

lemma Acts.current?_eq (h : w.Acts a w') (hwrote : Wrote mode [a]) (key : Key) :
    LawfulIndex.current? w'.index key =
      entryAfter mode key (LawfulIndex.current? w.index key) (written [a]) := by
  cases h with
  | consult r => rfl
  | request r =>
    obtain ⟨hnone, k, e, rfl⟩ := hwrote r _ (List.mem_singleton_self _)
    have hwrite : Index.perform w.index (.write mode k e) =
        (none, (w.request (.write mode k e)).2.index) := Prod.ext hnone rfl
    rw [LawfulIndex.current?_write hwrite key]
    show _ = if k = key then _ else _
    by_cases hk : key = k
    · rw [if_pos hk, if_pos hk.symm, hk]
    · rw [if_neg hk, if_neg (Ne.symm hk)]
  | announce e => exact congrFun (LawfulIndex.current?_announce _ e) key

lemma Acts.committed_eq (h : w.Acts a w') (honly : OnlyWrites [a]) :
    LawfulIndex.committed w'.index = LawfulIndex.committed w.index := by
  cases h with
  | consult r => rfl
  | request r =>
    obtain ⟨m, k, e, rfl⟩ := honly r _ (List.mem_singleton_self _)
    exact LawfulIndex.committed_write rfl
  | announce e => exact LawfulIndex.committed_announce _ e

/-- Over a journal of writes, the entry of a key changes by the writes for that key. -/
lemma Evolves.current?_eq (h : w.Evolves j w') (hwrote : Wrote mode j) (key : Key) :
    LawfulIndex.current? w'.index key =
      entryAfter mode key (LawfulIndex.current? w.index key) (written j) := by
  induction h with
  | refl => rfl
  | concat _ hact ih =>
    obtain ⟨hbefore, hlast⟩ := hwrote.of_append
    rw [hact.current?_eq hlast, ih hbefore, written_append, entryAfter_append]

/-- Over a journal of writes, nothing is committed. -/
lemma Evolves.committed_eq (h : w.Evolves j w') (honly : OnlyWrites j) :
    LawfulIndex.committed w'.index = LawfulIndex.committed w.index := by
  induction h with
  | refl => rfl
  | concat _ hact ih =>
    obtain ⟨hbefore, hlast⟩ := honly.of_append
    rw [hact.committed_eq hlast, ih hbefore]

/-- Announcements change nothing. -/
lemma Evolves.contents_of_announced {events : List Event}
    (h : w.Evolves (events.map Action.announced) w') :
    LawfulIndex.committed w'.index = LawfulIndex.committed w.index ∧
      LawfulIndex.current? w'.index = LawfulIndex.current? w.index := by
  induction events generalizing w with
  | nil =>
    obtain rfl := Evolves.eq_of_nil h
    exact ⟨rfl, rfl⟩
  | cons e rest ih =>
    obtain ⟨w₁, hact, hrest⟩ := Evolves.exists_of_cons h
    obtain ⟨hcommitted, hentry⟩ := ih hrest
    rw [hcommitted, hentry]
    cases hact with
    | announce => exact ⟨LawfulIndex.committed_announce _ _, LawfulIndex.current?_announce _ _⟩

/-- A commit that succeeds, announcements, and a refresh of the readers: all entries are then
committed, and what is committed is shown if the refresh succeeds. -/
lemma Evolves.contents_of_commit {events : List Event} {o : Option Failure}
    (h : w.Evolves (.requested .commit none :: (events.map Action.announced) ++
      [.requested .refreshReaders o]) w') :
    (LawfulIndex.committed w'.index).get? = LawfulIndex.current? w.index ∧
      (o = none → LawfulIndex.reader w'.index = LawfulIndex.committed w'.index) := by
  obtain ⟨w₁, hcommit, hrest⟩ := Evolves.exists_of_cons h
  obtain ⟨w₂, hevents, hlast⟩ := Evolves.exists_between hrest
  obtain ⟨w₃, hrefresh, hend⟩ := Evolves.exists_of_cons hlast
  obtain rfl := hend.eq_of_nil
  obtain ⟨hcommitted, hentry⟩ := hevents.contents_of_announced
  have agrees : (LawfulIndex.committed w₂.index).get? = LawfulIndex.current? w₂.index := by
    rw [hcommitted, hentry, LawfulIndex.committed_commit hcommit.perform,
      LawfulIndex.current?_commit hcommit.perform]
  refine ⟨?_, ?_⟩
  · rw [LawfulIndex.committed_refreshReaders hrefresh.perform agrees, hcommitted,
      LawfulIndex.committed_commit hcommit.perform]
  · rintro rfl
    exact LawfulIndex.reader_refreshReaders hrefresh.perform

/-- A commit, announcements, and a refresh of the readers change no entry. -/
lemma Evolves.current?_of_commit {events : List Event} {o o' : Option Failure}
    (h : w.Evolves (.requested .commit o :: (events.map Action.announced) ++
      [.requested .refreshReaders o']) w') :
    LawfulIndex.current? w'.index = LawfulIndex.current? w.index := by
  obtain ⟨w₁, hcommit, hrest⟩ := Evolves.exists_of_cons h
  obtain ⟨w₂, hevents, hlast⟩ := Evolves.exists_between hrest
  obtain ⟨w₃, hrefresh, hend⟩ := Evolves.exists_of_cons hlast
  obtain rfl := hend.eq_of_nil
  rw [LawfulIndex.current?_refreshReaders hrefresh.perform, hevents.contents_of_announced.2,
    LawfulIndex.current?_commit hcommit.perform]

end World

/-! ## Contents after a call -/

lemma onlyWrites_of_writes {mode : WriteMode} {j : List Action} (h : ∀ a ∈ j, a.Writes mode) :
    OnlyWrites j := by
  intro r o ha
  cases r with
  | write m key e => exact ⟨m, key, e, rfl⟩
  | commit => exact absurd (h _ ha) id
  | refreshReaders => exact absurd (h _ ha) id

lemma wrote_of_writes {mode : WriteMode} {j : List Action} (h : ∀ a ∈ j, a.Writes mode)
    (hfine : ∀ a ∈ j, ¬ a.Fails) : Wrote mode j := by
  intro r o ha
  obtain ⟨m, key, e, rfl⟩ := onlyWrites_of_writes h r o ha
  obtain rfl : m = mode := h _ ha
  exact ⟨Classical.byContradiction fun hne => hfine _ ha hne, key, e, rfl⟩

section Courses

variable {ρ ι : Type} [Resolver ρ] [Index ι] [LawfulIndex ι]
variable {mode : WriteMode} {opens : Int} {complete : Option Int} {streams : List RecordStream}
  {result written? : Except Failure Nat} {w w' : World ρ ι} {tales : List Tale}
  {j tail : List Action}

/-- A call whose commit succeeds leaves each key with its entry after all writes. -/
lemma Course.committed_of_commit {o : Option Failure}
    (h : Course mode opens complete streams result w w' written? tales j
      (.requested .commit none :: (complete.toList.map fun t => .announced ⟨.synced, t⟩) ++
        [.requested .refreshReaders o])) :
    (∀ key, (LawfulIndex.committed w'.index).get? key =
      entryAfter mode key (LawfulIndex.current? w.index key) (written j)) ∧
    (o = none → LawfulIndex.reader w'.index = LawfulIndex.committed w'.index) := by
  obtain ⟨w₁, hwriting, hending⟩ := World.Evolves.exists_between h.evolves
  obtain ⟨w₀, hopening, hrecords⟩ := World.Evolves.exists_of_cons hwriting
  obtain ⟨-, hfine⟩ := h.account.isOk_iff.1 (h.tail_ne_nil_iff.1 (List.cons_ne_nil _ _))
  have hevents : (complete.toList.map fun t => Action.announced ⟨.synced, t⟩) =
      (complete.toList.map (Event.mk .synced)).map Action.announced := (List.map_map ..).symm
  rw [hevents] at hending
  obtain ⟨hcommitted, hreader⟩ := hending.contents_of_commit
  refine ⟨fun key => ?_, hreader⟩
  rw [hcommitted, hrecords.current?_eq (wrote_of_writes h.account.writes hfine)]
  cases hopening with
  | announce =>
    show entryAfter mode key (LawfulIndex.current? (Index.announce w.index _) key) (written j) = _
    rw [LawfulIndex.current?_announce]

/-- A call commits all that it writes, or nothing. -/
theorem Course.committed_eq_or (h : Course mode opens complete streams result w w' written? tales
    j tail) :
    LawfulIndex.committed w'.index = LawfulIndex.committed w.index ∨
      (∃ n, written? = .ok n) ∧ ∀ key, (LawfulIndex.committed w'.index).get? key =
        entryAfter mode key (LawfulIndex.current? w.index key) (written j) := by
  have conclusion := h.conclusion
  -- up to the commit there are only an announcement and writes
  have unchanged {w₁ : World ρ ι}
      (hwriting : w.Evolves ([.announced ⟨.refreshing, opens⟩] ++ j) w₁) :
      LawfulIndex.committed w₁.index = LawfulIndex.committed w.index := by
    refine hwriting.committed_eq fun r o ha => ?_
    rcases List.mem_cons.1 ha with ha | ha
    · cases ha
    · exact onlyWrites_of_writes h.account.writes r o ha
  cases conclusion with
  | unwritten e =>
    have evolves := h.evolves
    rw [List.append_nil] at evolves
    exact Or.inl (unchanged evolves)
  | uncommitted e =>
    obtain ⟨w₁, hwriting, hending⟩ := World.Evolves.exists_between h.evolves
    obtain ⟨w₂, hcommit, hend⟩ := World.Evolves.exists_of_cons hending
    obtain rfl := hend.eq_of_nil
    exact Or.inl ((LawfulIndex.committed_commit_failed hcommit.perform).trans (unchanged hwriting))
  | unshown e =>
    exact Or.inr ⟨h.tail_ne_nil_iff.1 (List.cons_ne_nil _ _), h.committed_of_commit.1⟩
  | shown n =>
    exact Or.inr ⟨h.tail_ne_nil_iff.1 (List.cons_ne_nil _ _), h.committed_of_commit.1⟩

/-- A call that ends well has committed all that it has written, and readers see it. -/
theorem Course.contents_of_ok {n : Nat}
    (h : Course mode opens complete streams (.ok n) w w' written? tales j tail) :
    (∀ key, (LawfulIndex.committed w'.index).get? key =
      entryAfter mode key (LawfulIndex.current? w.index key) (written j)) ∧
    LawfulIndex.reader w'.index = LawfulIndex.committed w'.index := by
  have conclusion := h.conclusion
  cases conclusion with
  | shown =>
    obtain ⟨hcommitted, hreader⟩ := h.committed_of_commit
    exact ⟨hcommitted, hreader rfl⟩

/-- After a call that ends well the next write finds what is committed. -/
lemma Course.current?_of_ok {n : Nat}
    (h : Course mode opens complete streams (.ok n) w w' written? tales j tail) :
    LawfulIndex.current? w'.index = (LawfulIndex.committed w'.index).get? := by
  have conclusion := h.conclusion
  cases conclusion with
  | shown =>
    obtain ⟨w₁, hwriting, hending⟩ := World.Evolves.exists_between h.evolves
    have hevents : (complete.toList.map fun t => Action.announced ⟨.synced, t⟩) =
        (complete.toList.map (Event.mk .synced)).map Action.announced := (List.map_map ..).symm
    rw [hevents] at hending
    rw [hending.current?_of_commit, hending.contents_of_commit.1]

end Courses

end Bootstrap

end ShardIndex
