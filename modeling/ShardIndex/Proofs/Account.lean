import ShardIndex.Bootstrap.Crew
import ShardIndex.Proofs.Journal

/-!
# Accounts

However records are written, each of them is handled by one task: the resolver is asked, and then
the row is written.  A task that stops early has done less.  `Story` lists what a task can have
done at each stage, and an `Account` of a journal says that it is a rearrangement of the stories
of some tasks, of which all have ended well if the writing has.

Records that are written one after another have an account (`exists_account_writeInOrder`).
-/

namespace ShardIndex.Bootstrap

open Identity

/-! ## What one task does -/

/-- What a task for a record has done when it has come so far. -/
inductive Story (mode : WriteMode) (r : Record) : Progress → List Action → Prop
  /-- It has done nothing. -/
  | waiting : Story mode r .waiting []
  /-- The resolver gave an id. -/
  | resolved (n : PartId) : Story mode r (.resolved n) [.consulted r (.id n)]
  /-- The resolver gave none. -/
  | refused (cause : Failure) :
      Story mode r (.finished (some cause)) [.consulted r (.refused cause)]
  /-- The resolver broke down. -/
  | panicked : Story mode r (.finished (some .task)) [.consulted r .panicked]
  /-- The index was asked to write the row. -/
  | wrote (n : PartId) (outcome : Option Failure) :
      Story mode r (.finished outcome)
        [.consulted r (.id n), .requested (.write mode r.key (r.entry n)) outcome]

namespace Story

variable {mode : WriteMode} {r : Record} {p : Progress} {l : List Action}

lemma written_sublist (h : Story mode r p l) : (written l).Sublist (granted l) := by
  cases h with
  | waiting => exact List.Sublist.refl _
  | resolved n => exact List.nil_sublist _
  | refused cause => exact List.Sublist.refl _
  | panicked => exact List.Sublist.refl _
  | wrote n outcome => exact List.Sublist.refl _

lemma writes (h : Story mode r p l) : ∀ a ∈ l, a.Writes mode := by
  cases h <;> simp [Action.Writes]

lemma consulted_sublist (h : Story mode r p l) : (consulted l).Sublist [r] := by
  cases h with
  | waiting => exact List.nil_sublist _
  | _ => exact List.Sublist.refl _

/-- A task that has failed has an action that did. -/
lemma exists_fails {e : Failure} (h : Story mode r (.finished (some e)) l) : ∃ a ∈ l, a.Fails := by
  cases h with
  | refused => exact ⟨_, List.mem_singleton_self _, fun n hn => by cases hn⟩
  | panicked => exact ⟨_, List.mem_singleton_self _, fun n hn => by cases hn⟩
  | wrote n => exact ⟨_, List.mem_cons_of_mem _ (List.mem_singleton_self _), fun hn => by cases hn⟩

/-- A task that has ended well was given an id and has written the row. -/
lemma eq_of_finished (h : Story mode r (.finished none) l) :
    ∃ n, l = [.consulted r (.id n), .requested (.write mode r.key (r.entry n)) none] := by
  cases h with
  | wrote n => exact ⟨n, rfl⟩

lemma covered (h : Story mode r p l) : Covered l := by
  have asked (answer : Answer) : Covered [.consulted r answer] :=
    covered_nil.concat _ (List.nil_subperm)
  cases h with
  | waiting => exact covered_nil
  | resolved n => exact asked _
  | refused cause => exact asked _
  | panicked => exact asked _
  | wrote n outcome => exact (asked (.id n)).concat _ (List.Subperm.refl _)

end Story

/-- A task with what it has done. -/
structure Tale where
  /-- The task. -/
  task : Task
  /-- What it has done, in order. -/
  deeds : List Action

namespace Tale

/-- Whether the task can have done this. -/
def IsTrue (mode : WriteMode) (t : Tale) : Prop := Story mode t.task.record t.task.progress t.deeds

/-- Whether the task has ended well. -/
def IsDone (t : Tale) : Prop := t.task.progress = .finished none

/-- All that some tasks have done, one after another. -/
def deedsOf (tales : List Tale) : List Action := tales.flatMap deeds

/-- The records of some tasks. -/
def records (tales : List Tale) : List Record := tales.map fun t => t.task.record

@[simp] lemma deedsOf_append (l l' : List Tale) : deedsOf (l ++ l') = deedsOf l ++ deedsOf l' :=
  List.flatMap_append

@[simp] lemma deedsOf_cons (t : Tale) (l : List Tale) : deedsOf (t :: l) = t.deeds ++ deedsOf l :=
  List.flatMap_cons

@[simp] lemma records_append (l l' : List Tale) : records (l ++ l') = records l ++ records l' :=
  List.map_append

variable {mode : WriteMode} {tales : List Tale}

lemma written_sublist_granted (h : ∀ t ∈ tales, t.IsTrue mode) :
    (written (deedsOf tales)).Sublist (granted (deedsOf tales)) := by
  induction tales with
  | nil => exact List.Sublist.refl _
  | cons t l ih =>
    rw [deedsOf_cons, written_append, granted_append]
    exact (Story.written_sublist (h t List.mem_cons_self)).append
      (ih fun t ht => h t (List.mem_cons_of_mem _ ht))

lemma consulted_sublist_records (h : ∀ t ∈ tales, t.IsTrue mode) :
    (consulted (deedsOf tales)).Sublist (records tales) := by
  induction tales with
  | nil => exact List.Sublist.refl _
  | cons t l ih =>
    rw [deedsOf_cons, consulted_append]
    exact (Story.consulted_sublist (h t List.mem_cons_self)).append
      (ih fun t ht => h t (List.mem_cons_of_mem _ ht))

/-- Tasks that have all ended well have asked about their records, and have written what they
were granted, a row for each record. -/
lemma deedsOf_of_isDone (h : ∀ t ∈ tales, t.IsTrue mode) (hdone : ∀ t ∈ tales, t.IsDone) :
    consulted (deedsOf tales) = records tales ∧
      written (deedsOf tales) = granted (deedsOf tales) ∧
      (written (deedsOf tales)).map Record.ofRow = records tales ∧
      ∀ a ∈ deedsOf tales, ¬ a.Fails := by
  induction tales with
  | nil => exact ⟨rfl, rfl, rfl, fun a ha => by cases ha⟩
  | cons t l ih =>
    obtain ⟨hc, hw, hr, hf⟩ := ih (fun t ht => h t (List.mem_cons_of_mem _ ht))
      fun t ht => hdone t (List.mem_cons_of_mem _ ht)
    have story : Story mode t.task.record (.finished none) t.deeds := by
      have := h t List.mem_cons_self
      rwa [IsTrue, hdone t List.mem_cons_self] at this
    obtain ⟨n, hn⟩ := story.eq_of_finished
    rw [deedsOf_cons, consulted_append, written_append, granted_append, List.map_append, hc, hw,
      ← hw, hr, hn]
    refine ⟨rfl, rfl, rfl, fun a ha => ?_⟩
    rcases List.mem_append.1 ha with ha | ha
    · rcases List.mem_pair.1 ha with rfl | rfl
      · exact fun hfail => hfail n rfl
      · exact fun hfail => hfail rfl
    · exact hf a ha

end Tale

/-! ## What a call does -/

/-- A journal of the writing of some records, told task by task.  The streams of the records break
off with the given failures, and the outcome is the count of the records or a failure. -/
structure Account (mode : WriteMode) (records : List Record) (failures : List Failure)
    (outcome : Except Failure Nat) (tales : List Tale) (j : List Action) : Prop where
  /-- Each task has done what a task can do. -/
  isTrue : ∀ t ∈ tales, t.IsTrue mode
  /-- Nothing else has happened. -/
  perm : j.Perm (Tale.deedsOf tales)
  /-- No task writes before it may. -/
  covered : Covered j
  /-- Each task has a record of its own. -/
  subperm : (Tale.records tales).Subperm records
  /-- What it takes to end well. -/
  ok : ∀ n, outcome = .ok n →
    failures = [] ∧ tales.length = n ∧ (Tale.records tales).Perm records ∧ ∀ t ∈ tales, t.IsDone
  /-- What a failure comes from. -/
  error : ∀ e, outcome = .error e →
    e ∈ failures ∨ ∃ t ∈ tales, t.task.progress = .finished (some e)

namespace Account

variable {mode : WriteMode} {records : List Record} {failures : List Failure}
  {outcome : Except Failure Nat} {tales : List Tale} {j : List Action} {n : Nat}

lemma writes (h : Account mode records failures outcome tales j) : ∀ a ∈ j, a.Writes mode := by
  intro a ha
  obtain ⟨t, ht, hat⟩ := List.mem_flatMap.1 (h.perm.mem_iff.1 ha)
  exact Story.writes (h.isTrue t ht) a hat

/-- Only records of the streams are asked about. -/
lemma consulted_subperm (h : Account mode records failures outcome tales j) :
    (consulted j).Subperm records :=
  ((h.perm.filterMap _).subperm.trans
    (Tale.consulted_sublist_records h.isTrue).subperm).trans h.subperm

/-- Writing ends well exactly if no stream breaks off and nothing fails on the way. -/
lemma isOk_iff (h : Account mode records failures outcome tales j) :
    (∃ n, outcome = .ok n) ↔ failures = [] ∧ ∀ a ∈ j, ¬ a.Fails := by
  constructor
  · rintro ⟨n, hn⟩
    obtain ⟨hfailures, -, -, hdone⟩ := h.ok n hn
    obtain ⟨-, -, -, hfine⟩ := Tale.deedsOf_of_isDone h.isTrue hdone
    exact ⟨hfailures, fun a ha => hfine a (h.perm.mem_iff.1 ha)⟩
  · rintro ⟨hfailures, hfine⟩
    cases houtcome : outcome with
    | ok n => exact ⟨n, rfl⟩
    | error e =>
      exfalso
      rcases h.error e houtcome with he | ⟨t, ht, hp⟩
      · rw [hfailures] at he
        cases he
      · -- a task that has failed has done something that did
        have story := h.isTrue t ht
        rw [Tale.IsTrue, hp] at story
        obtain ⟨a, ha, hfails⟩ := story.exists_fails
        exact hfine a (h.perm.mem_iff.2 (List.mem_flatMap.2 ⟨t, ht, ha⟩)) hfails

/-- If writing ends well, every record was asked about. -/
lemma consulted_perm (h : Account mode records failures (.ok n) tales j) :
    (consulted j).Perm records := by
  obtain ⟨-, -, hrecords, hdone⟩ := h.ok n rfl
  have := h.perm.filterMap Action.consulted?
  exact (this.trans (List.Perm.of_eq (Tale.deedsOf_of_isDone h.isTrue hdone).1)).trans hrecords

/-- If writing ends well, a row was written for every record. -/
lemma written_perm (h : Account mode records failures (.ok n) tales j) :
    ((written j).map Record.ofRow).Perm records := by
  obtain ⟨-, -, hrecords, hdone⟩ := h.ok n rfl
  have := (h.perm.filterMap Action.write?).map Record.ofRow
  exact (this.trans (List.Perm.of_eq (Tale.deedsOf_of_isDone h.isTrue hdone).2.2.1)).trans hrecords

/-- If writing ends well, what was written is what was granted. -/
lemma written_perm_granted (h : Account mode records failures (.ok n) tales j) :
    (written j).Perm (granted j) := by
  obtain ⟨-, -, -, hdone⟩ := h.ok n rfl
  have hw := h.perm.filterMap Action.write?
  have hg := h.perm.filterMap Action.grant?
  exact (hw.trans (List.Perm.of_eq (Tale.deedsOf_of_isDone h.isTrue hdone).2.1)).trans hg.symm

/-- If writing ends well, a row was written under a key if and only if a record has the key. -/
lemma exists_row_iff (h : Account mode records failures (.ok n) tales j) (key : Key) :
    (∃ row ∈ written j, row.1 = key) ↔ ∃ r ∈ records, r.key = key := by
  constructor
  · rintro ⟨row, hrow, rfl⟩
    exact ⟨_, h.written_perm.mem_iff.1 (List.mem_map_of_mem hrow), rfl⟩
  · rintro ⟨r, hr, rfl⟩
    obtain ⟨row, hrow, rfl⟩ := List.mem_map.1 (h.written_perm.mem_iff.2 hr)
    exact ⟨row, hrow, rfl⟩

/-- If writing ends well, every row has an id that was given for its key. -/
lemma exists_consulted_of_mem (h : Account mode records failures (.ok n) tales j)
    {row : Key × Entry} (hrow : row ∈ written j) :
    ∃ r, r.key = row.1 ∧ .consulted r (.id row.2.id) ∈ j := by
  obtain ⟨r, m, ha, rfl⟩ := mem_granted_iff.1 (h.written_perm_granted.mem_iff.1 hrow)
  exact ⟨r, rfl, ha⟩

/-- If writing ends well, every record was given an id. -/
lemma exists_id_of_mem (h : Account mode records failures (.ok n) tales j) {r : Record}
    (hr : r ∈ records) : ∃ m, .consulted r (.id m) ∈ j := by
  obtain ⟨answer, ha⟩ := mem_consulted_iff.1 (h.consulted_perm.mem_iff.2 hr)
  obtain ⟨-, hfine⟩ := h.isOk_iff.1 ⟨n, rfl⟩
  by_contra hnone
  refine hfine _ ha fun m hm => hnone ⟨m, ?_⟩
  rw [← hm]
  exact ha

/-- The count of a writing that ends well is that of the records. -/
lemma length_eq (h : Account mode records failures (.ok n) tales j) : records.length = n := by
  obtain ⟨-, hlength, hrecords, -⟩ := h.ok n rfl
  rw [← hrecords.length_eq, ← hlength, Tale.records, List.length_map]

end Account

/-! ## Records written one after another -/

/-- Nothing was to be written, and the stream may have broken off. -/
lemma Account.nil (mode : WriteMode) (failure : Option Failure) :
    Account mode [] failure.toList (failure.elim (.ok 0) .error) [] [] where
  isTrue _ ht := by cases ht
  perm := List.Perm.refl _
  covered := covered_nil
  subperm := List.Subperm.refl _
  ok n hn := by
    cases failure with
    | none => exact ⟨rfl, Except.ok.inj hn, List.Perm.refl _, fun t ht => by cases ht⟩
    | some e => cases hn
  error e he := by
    cases failure with
    | none => cases he
    | some e' => exact Or.inl (List.mem_singleton.2 (Except.error.inj he).symm)

/-- One more record was written before all others. -/
lemma Account.cons {mode : WriteMode} {r : Record} {rest : List Record} {failures : List Failure}
    {outcome : Except Failure Nat} {tales : List Tale} {l j : List Action}
    (story : Story mode r (.finished none) l) (h : Account mode rest failures outcome tales j) :
    Account mode (r :: rest) failures (outcome.map (1 + ·)) (⟨⟨r, .finished none⟩, l⟩ :: tales)
      (l ++ j) where
  isTrue := List.forall_mem_cons.2 ⟨story, h.isTrue⟩
  perm := h.perm.append_left l
  covered := story.covered.append h.covered
  subperm := List.subperm_cons r |>.2 h.subperm
  ok n hn := by
    cases houtcome : outcome with
    | error e => rw [houtcome] at hn; cases hn
    | ok m =>
      rw [houtcome] at hn
      obtain ⟨hfailures, hlength, hrecords, hdone⟩ := h.ok m houtcome
      have hm : 1 + m = n := Except.ok.inj hn
      refine ⟨hfailures, ?_, hrecords.cons r, List.forall_mem_cons.2 ⟨rfl, hdone⟩⟩
      rw [List.length_cons, hlength, ← hm, Nat.add_comm]
  error e he := by
    cases houtcome : outcome with
    | ok m => rw [houtcome] at he; cases he
    | error e' =>
      rw [houtcome] at he
      obtain rfl : e' = e := Except.error.inj he
      rcases h.error e' houtcome with hf | ⟨t, ht, hp⟩
      · exact Or.inl hf
      · exact Or.inr ⟨t, List.mem_cons_of_mem _ ht, hp⟩

/-- The first record was not written, and no other was tried. -/
lemma Account.failed {mode : WriteMode} {r : Record} {e : Failure} {l : List Action}
    (story : Story mode r (.finished (some e)) l) (rest : List Record) (failures : List Failure) :
    Account mode (r :: rest) failures (.error e) [⟨⟨r, .finished (some e)⟩, l⟩] l where
  isTrue t ht := by rw [List.mem_singleton.1 ht]; exact story
  perm := List.Perm.of_eq (List.append_nil l).symm
  covered := story.covered
  subperm := List.subperm_cons r |>.2 List.nil_subperm
  ok n hn := by cases hn
  error e' he := by
    obtain rfl : e = e' := Except.error.inj he
    exact Or.inr ⟨_, List.mem_singleton_self _, rfl⟩

namespace World

variable {ρ ι : Type} [Resolver ρ] [Index ι]

/-- A record that is resolved and written makes one tale. -/
lemma exists_story_writeRecord (mode : WriteMode) (r : Record) (w : World ρ ι) :
    ∃ l, w.Evolves l (w.writeRecord mode r).2 ∧
      Story mode r (.finished (w.writeRecord mode r).1) l := by
  have asked := (Evolves.refl (w := w)).consult r
  unfold writeRecord
  split
  · rename_i n w₁ hw₁
    rw [hw₁] at asked
    exact ⟨_, asked.request _, Story.wrote n _⟩
  · rename_i cause w₁ hw₁
    rw [hw₁] at asked
    exact ⟨_, asked, Story.refused cause⟩
  · rename_i w₁ hw₁
    rw [hw₁] at asked
    exact ⟨_, asked, Story.panicked⟩

/-- Records that are written one after another have an account, each in its turn. -/
theorem exists_account_writeInOrder (mode : WriteMode) (failure : Option Failure)
    (records : List Record) (count : Nat) (w : World ρ ι) :
    ∃ j tales outcome, w.Evolves j (writeInOrder mode failure records count w).2 ∧
      (writeInOrder mode failure records count w).1 = outcome.map (count + ·) ∧
      Account mode records failure.toList outcome tales j := by
  induction records generalizing count w with
  | nil =>
    refine ⟨[], [], _, ?_, ?_, Account.nil mode failure⟩
    · cases failure <;> exact Evolves.refl
    · cases failure <;> rfl
  | cons r rest ih =>
    obtain ⟨l, evolves, story⟩ := exists_story_writeRecord mode r w
    rw [writeInOrder]
    split
    · rename_i e w₁ hw₁
      rw [hw₁] at evolves story
      exact ⟨l, _, _, evolves, rfl, Account.failed story rest _⟩
    · rename_i w₁ hw₁
      rw [hw₁] at evolves story
      obtain ⟨j, tales, outcome, hj, houtcome, account⟩ := ih (count + 1) w₁
      -- the record counts once here, and the others in the outcome of the rest
      refine ⟨l ++ j, _, _, evolves.trans hj, ?_, account.cons story⟩
      rw [houtcome]
      cases outcome with
      | error e => rfl
      | ok n => exact congrArg Except.ok (Nat.add_assoc count 1 n)

end World

end ShardIndex.Bootstrap
