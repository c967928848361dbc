import ShardIndex.Proofs.Account
import ShardIndex.Proofs.Feed

/-!
# The books of a crew

Under any order of its choices a crew stays accountable.  The invariant is a `Ledger`: every
record of the feed is either still to come, or in the hands of a task in flight, or was in those
of a task that has left, and the journal tells what these tasks have done.  One choice keeps it
(`Ledger.step`), so every reachable state has one (`exists_ledger`).

A crew with room for at least one task gets to an end whatever choices it begins with
(`isOver_finish`), and conversely every end that any choices lead to is that of some schedule
(`exists_schedule`).  So what a schedule makes of a feed has an account
(`exists_account_writeAll`), and speaking of all schedules is speaking of all orders.
-/

namespace ShardIndex.Bootstrap.Crew

open Identity

variable {ρ ι : Type} [Resolver ρ] [Index ι]
variable {mode : WriteMode} {limit : Nat} {c c' : Crew ρ ι}

/-! ## What a choice can do -/

/-- What happens by a choice. -/
inductive Incident
  /-- The loop took a record from the feed and started a task for it. -/
  | took (r : Record)
  /-- The loop saw that the feed was at its end. -/
  | ended
  /-- The feed delivered a failure. -/
  | broke (e : Failure)
  /-- The task of a record moved on. -/
  | advanced (r : Record)
  /-- The loop waited for the task of a record, and this was its outcome. -/
  | joined (r : Record) (outcome : Option Failure)
  /-- After a failure, the task of a record was given up. -/
  | abandoned (r : Record)
deriving DecidableEq, Repr

/-- What would happen by a choice. -/
def incident (limit : Nat) (c : Crew ρ ι) : Choice → Option Incident
  | .pull n =>
    match c.feed.pull limit n with
    | none => none
    | some .finished => some .ended
    | some (.broken e) => some (.broke e)
    | some (.record r _) => some (.took r)
  | .advance i => c.tasks[i]?.map fun t => .advanced t.record
  | .join i =>
    match c.tasks[i]? with
    | some ⟨r, .finished outcome⟩ => some (.joined r outcome)
    | _ => none
  | .abandon i => c.tasks[i]?.map fun t => .abandoned t.record

/-- What making a choice comes to. -/
inductive Move (mode : WriteMode) (limit : Nat) (c : Crew ρ ι) : Incident → Crew ρ ι → Prop
  /-- A task was started for a record. -/
  | pulled {n : Nat} {r : Record} {rest : Feed} : c.failed = none → c.hungry limit →
      c.feed.pull limit n = some (.record r rest) →
      Move mode limit c (.took r) { c with feed := rest, tasks := c.tasks ++ [⟨r, .waiting⟩] }
  /-- The feed was seen to be at its end. -/
  | ended {n : Nat} : c.failed = none → c.hungry limit →
      c.feed.pull limit n = some .finished →
      Move mode limit c .ended { c with exhausted := true }
  /-- The feed broke off. -/
  | broke {n : Nat} {e : Failure} : c.failed = none → c.hungry limit →
      c.feed.pull limit n = some (.broken e) →
      Move mode limit c (.broke e) { c with failed := some e }
  /-- A task moved on. -/
  | advanced {i : Nat} {t t' : Task} {w : World ρ ι} : c.tasks[i]? = some t →
      work mode c.world t = some (t', w) →
      Move mode limit c (.advanced t.record) { c with tasks := c.tasks.set i t', world := w }
  /-- A task that had ended well was waited for. -/
  | joined {i : Nat} {r : Record} : c.failed = none → c.tasks[i]? = some ⟨r, .finished none⟩ →
      Move mode limit c (.joined r none)
        { c with tasks := c.tasks.eraseIdx i, count := c.count + 1 }
  /-- A task that had failed was waited for. -/
  | failed {i : Nat} {r : Record} {e : Failure} : c.failed = none →
      c.tasks[i]? = some ⟨r, .finished (some e)⟩ →
      Move mode limit c (.joined r (some e))
        { c with tasks := c.tasks.eraseIdx i, failed := some e }
  /-- After a failure, a task was given up. -/
  | abandoned {i : Nat} {t : Task} : c.failed.isSome → c.tasks[i]? = some t →
      Move mode limit c (.abandoned t.record) { c with tasks := c.tasks.eraseIdx i }

lemma move_of_step {choice : Choice} (h : c.step mode limit choice = some c') :
    ∃ x, c.incident limit choice = some x ∧ Move mode limit c x c' := by
  cases choice with
  | pull n =>
    simp only [step] at h
    split at h
    · rename_i hopen
      rw [Bool.and_eq_true, Option.isNone_iff_eq_none] at hopen
      split at h
      · cases h
      · rename_i hpull
        rw [← Option.some.inj h]
        exact ⟨.ended, by simp only [incident, hpull], .ended hopen.1 hopen.2 hpull⟩
      · rename_i e hpull
        rw [← Option.some.inj h]
        exact ⟨.broke e, by simp only [incident, hpull], .broke hopen.1 hopen.2 hpull⟩
      · rename_i r rest hpull
        rw [← Option.some.inj h]
        exact ⟨.took r, by simp only [incident, hpull], .pulled hopen.1 hopen.2 hpull⟩
    · cases h
  | advance i =>
    simp only [step] at h
    split at h
    · cases h
    · rename_i t ht
      split at h
      · cases h
      · rename_i t' w hwork
        rw [← Option.some.inj h, incident, ht]
        exact ⟨_, rfl, .advanced ht hwork⟩
  | join i =>
    simp only [step] at h
    split at h
    · rename_i hopen
      rw [Bool.and_eq_true, Option.isNone_iff_eq_none] at hopen
      split at h
      · rename_i r ht
        rw [← Option.some.inj h]
        exact ⟨.joined r none, by simp only [incident, ht], .joined hopen.1 ht⟩
      · rename_i r e ht
        rw [← Option.some.inj h]
        exact ⟨.joined r (some e), by simp only [incident, ht], .failed hopen.1 ht⟩
      · cases h
    · cases h
  | abandon i =>
    simp only [step] at h
    split at h
    · rename_i hopen
      rw [Bool.and_eq_true, decide_eq_true_eq] at hopen
      have ht : c.tasks[i]? = some c.tasks[i] := List.getElem?_eq_getElem hopen.2
      rw [← Option.some.inj h, incident, ht]
      exact ⟨_, rfl, .abandoned hopen.1 ht⟩
    · cases h

/-- A task that moves on does one more thing. -/
lemma exists_action_of_work {w w' : World ρ ι} {t t' : Task} {l : List Action}
    (h : work mode w t = some (t', w')) (story : Story mode t.record t.progress l) :
    ∃ a, w.Evolves [a] w' ∧ t'.record = t.record ∧ Story mode t.record t'.progress (l ++ [a]) := by
  obtain ⟨r, p⟩ := t
  cases p with
  | waiting =>
    have asked := (World.Evolves.refl (w := w)).consult r
    obtain rfl : l = [] := by cases story; rfl
    simp only [work] at h
    split at h
    · rename_i n w₁ hw₁
      obtain ⟨rfl, rfl⟩ := Prod.mk.inj (Option.some.inj h)
      rw [hw₁] at asked
      exact ⟨_, asked, rfl, .resolved n⟩
    · rename_i cause w₁ hw₁
      obtain ⟨rfl, rfl⟩ := Prod.mk.inj (Option.some.inj h)
      rw [hw₁] at asked
      exact ⟨_, asked, rfl, .refused cause⟩
    · rename_i w₁ hw₁
      obtain ⟨rfl, rfl⟩ := Prod.mk.inj (Option.some.inj h)
      rw [hw₁] at asked
      exact ⟨_, asked, rfl, .panicked⟩
  | resolved n =>
    obtain rfl : l = [.consulted r (.id n)] := by cases story; rfl
    obtain ⟨rfl, rfl⟩ := Prod.mk.inj (Option.some.inj h)
    exact ⟨_, (World.Evolves.refl (w := w)).request (.write mode r.key (r.entry n)), rfl,
      .wrote n _⟩
  | finished outcome => cases h

/-! ## The invariant -/

/-- The books of a crew that began with a feed and a world: the tasks that have left and those
that are in flight, each with what it has done, and all that was done. -/
structure Ledger (mode : WriteMode) (limit : Nat) (feed : Feed) (w : World ρ ι)
    (left present : List Tale) (j : List Action) (c : Crew ρ ι) : Prop where
  /-- The world has become what was done to it. -/
  evolves : w.Evolves j c.world
  /-- Each task has done what a task can do. -/
  isTrue : ∀ t ∈ left ++ present, t.IsTrue mode
  /-- The tasks in flight. -/
  tasks : present.map Tale.task = c.tasks
  /-- Only tasks have done anything. -/
  perm : j.Perm (Tale.deedsOf (left ++ present))
  /-- No task writes before it may. -/
  covered : Covered j
  /-- No record is lost, and none is there twice. -/
  records : feed.records.Perm (Tale.records (left ++ present) ++ c.feed.records)
  /-- What breaks the feed off is still to come. -/
  failures : c.feed.failures = feed.failures
  /-- The end of the feed is seen only when nothing is left. -/
  exhausted : c.exhausted = true → c.feed.records = [] ∧ c.feed.failures = []
  /-- There is a bound on the tasks in flight. -/
  bounded : c.tasks.length ≤ limit
  /-- As long as nothing has failed, all tasks that have left ended well, and are counted. -/
  ok : c.failed = none → left.length = c.count ∧ ∀ t ∈ left, t.IsDone
  /-- What has failed is the feed or a task that has left. -/
  error : ∀ e, c.failed = some e →
    e ∈ feed.failures ∨ ∃ t ∈ left, t.task.progress = .finished (some e)

variable {feed : Feed} {w : World ρ ι}

lemma ledger_start (mode : WriteMode) (limit : Nat) (feed : Feed) (w : World ρ ι) :
    Ledger mode limit feed w [] [] [] (start feed w) where
  evolves := .refl
  isTrue _ ht := by cases ht
  tasks := rfl
  perm := List.Perm.refl _
  covered := covered_nil
  records := List.Perm.refl _
  failures := rfl
  exhausted h := by cases h
  bounded := Nat.zero_le _
  ok _ := ⟨rfl, fun _ ht => by cases ht⟩
  error _ he := by cases he

namespace Ledger

variable {left present : List Tale} {j : List Action}

/-- The tale of a task in flight. -/
lemma exists_tale (h : Ledger mode limit feed w left present j c) {i : Nat} {t : Task}
    (ht : c.tasks[i]? = some t) : ∃ tale, present[i]? = some tale ∧ tale.task = t := by
  rw [← h.tasks, List.getElem?_map] at ht
  exact Option.map_eq_some_iff.1 ht

/-- A task is started for a record of the feed. -/
lemma pull (h : Ledger mode limit feed w left present j c) (hungry : c.hungry limit)
    {n : Nat} {r : Record} {rest : Feed} (hpull : c.feed.pull limit n = some (.record r rest)) :
    Ledger mode limit feed w left (present ++ [⟨⟨r, .waiting⟩, []⟩]) j
      { c with feed := rest, tasks := c.tasks ++ [⟨r, .waiting⟩] } where
  evolves := h.evolves
  isTrue t ht := by
    rw [← List.append_assoc] at ht
    rcases List.mem_append.1 ht with ht | ht
    · exact h.isTrue t ht
    · rw [List.mem_singleton.1 ht]
      exact Story.waiting
  tasks := by rw [List.map_append, h.tasks]; rfl
  perm := by
    rw [← List.append_assoc, Tale.deedsOf_append]
    exact h.perm.trans (List.Perm.of_eq (List.append_nil _).symm)
  covered := h.covered
  records := by
    rw [← List.append_assoc, Tale.records_append _ [_], List.append_assoc]
    exact h.records.trans ((Feed.records_of_pull_eq_record hpull).append_left _)
  failures := (Feed.failures_of_pull_eq_record hpull).trans h.failures
  exhausted hex := by
    rw [Crew.hungry, Bool.and_eq_true, Bool.not_eq_true'] at hungry
    cases hungry.1.symm.trans hex
  bounded := by
    rw [Crew.hungry, Bool.and_eq_true, decide_eq_true_eq] at hungry
    rw [List.length_append]
    exact hungry.2
  ok := h.ok
  error := h.error

/-- A task in flight moves on. -/
lemma advance (h : Ledger mode limit feed w left present j c) {i : Nat} {tale : Tale}
    (htale : present[i]? = some tale) {t' : Task} {a : Action} {w' : World ρ ι}
    (hrecord : t'.record = tale.task.record) (hevolves : c.world.Evolves [a] w')
    (story : Story mode tale.task.record t'.progress (tale.deeds ++ [a])) :
    Ledger mode limit feed w left (present.set i ⟨t', tale.deeds ++ [a]⟩) (j ++ [a])
      { c with tasks := c.tasks.set i t', world := w' } := by
  obtain ⟨before, after, hpresent, hset, -⟩ := exists_split htale
  have isTrue : ∀ t ∈ left ++ present.set i ⟨t', tale.deeds ++ [a]⟩, t.IsTrue mode := by
    intro t ht
    rw [hset, ← List.append_assoc] at ht
    have hold := h.isTrue
    rw [hpresent, ← List.append_assoc] at hold
    rcases List.mem_append.1 ht with ht | ht
    · exact hold t (List.mem_append_left _ ht)
    · rcases List.mem_cons.1 ht with rfl | ht
      · rw [Tale.IsTrue, hrecord]
        exact story
      · exact hold t (List.mem_append_right _ (List.mem_cons_of_mem _ ht))
  have perm : (j ++ [a]).Perm
      (Tale.deedsOf (left ++ present.set i ⟨t', tale.deeds ++ [a]⟩)) := by
    have hold := h.perm
    rw [hpresent, Tale.deedsOf_append, Tale.deedsOf_append, Tale.deedsOf_cons] at hold
    rw [hset, Tale.deedsOf_append, Tale.deedsOf_append, Tale.deedsOf_cons]
    -- the action goes to the deeds of its task, past those of the tasks behind it
    refine (hold.append_right [a]).trans ?_
    simp only [List.append_assoc]
    exact ((List.perm_append_comm.append_left _).append_left _).append_left _
  refine ⟨h.evolves.trans hevolves, isTrue, ?_, perm, ?_, ?_, h.failures, h.exhausted, ?_, h.ok,
    h.error⟩
  · rw [List.map_set, h.tasks]
  · -- all tasks together have not written more than they were granted
    refine h.covered.concat a ?_
    exact ((perm.filterMap _).subperm.trans
      (Tale.written_sublist_granted isTrue).subperm).trans (perm.filterMap _).symm.subperm
  · have hold := h.records
    rw [hpresent] at hold
    rw [hset]
    simp only [Tale.records, List.map_append, List.map_cons, hrecord] at hold ⊢
    exact hold
  · rw [List.length_set]
    exact h.bounded

/-- A task in flight leaves, whatever becomes of the crew by it. -/
lemma leave (h : Ledger mode limit feed w left present j c) {i : Nat} {tale : Tale}
    (htale : present[i]? = some tale) {count : Nat} {failed : Option Failure}
    (ok : failed = none → left.length + 1 = count ∧ ∀ t ∈ left ++ [tale], t.IsDone)
    (error : ∀ e, failed = some e → c.failed = some e ∨
      tale.task.progress = .finished (some e)) :
    Ledger mode limit feed w (left ++ [tale]) (present.eraseIdx i) j
      { c with tasks := c.tasks.eraseIdx i, count := count, failed := failed } := by
  obtain ⟨before, after, hpresent, -, herase⟩ := exists_split htale
  -- the tale changes places, and all that is said of both lists together stays true
  have moved : (left ++ present).Perm (left ++ [tale] ++ present.eraseIdx i) := by
    rw [herase, hpresent, List.append_assoc]
    exact List.perm_middle.append_left left
  refine ⟨h.evolves, fun t ht => h.isTrue t (moved.mem_iff.2 ht), ?_, ?_, h.covered, ?_,
    h.failures, h.exhausted, ?_, fun hf => ?_, fun e he => ?_⟩
  · rw [← List.eraseIdx_map, h.tasks]
  · exact h.perm.trans (moved.flatMap_right Tale.deeds)
  · exact h.records.trans ((moved.map _).append_right _)
  · exact Nat.le_trans (List.length_eraseIdx_le ..) h.bounded
  · rw [List.length_append]
    exact ok hf
  · rcases error e he with hc | hp
    · rcases h.error e hc with hfeed | ⟨t, ht, htp⟩
      · exact Or.inl hfeed
      · exact Or.inr ⟨t, List.mem_append_left _ ht, htp⟩
    · exact Or.inr ⟨tale, List.mem_append_right _ (List.mem_singleton_self _), hp⟩

/-- Every choice keeps the books. -/
theorem step (h : Ledger mode limit feed w left present j c) {choice : Choice}
    (hstep : c.step mode limit choice = some c') :
    ∃ left' present' j', Ledger mode limit feed w left' present' j' c' := by
  obtain ⟨_, -, move⟩ := move_of_step hstep
  cases move with
  | pulled hfailed hungry hpull => exact ⟨_, _, _, h.pull hungry hpull⟩
  | ended hfailed hungry hpull =>
    exact ⟨_, _, _, { h with exhausted := fun _ => Feed.eq_nil_of_pull_eq_finished hpull }⟩
  | @broke n e hfailed hungry hpull =>
    have he : e ∈ feed.failures := h.failures ▸ Feed.mem_failures_of_pull_eq_broken hpull
    exact ⟨_, _, _, { h with
      ok := fun hf => by cases hf
      error := fun e' he' => Or.inl (Option.some.inj he' ▸ he) }⟩
  | @advanced i t t' w' ht hwork =>
    obtain ⟨tale, htale, rfl⟩ := h.exists_tale ht
    have story : tale.IsTrue mode :=
      h.isTrue tale (List.mem_append_right _ (List.mem_of_getElem? htale))
    obtain ⟨a, hevolves, hrecord, hstory⟩ := exists_action_of_work hwork story
    exact ⟨_, _, _, h.advance htale hrecord hevolves hstory⟩
  | @joined i r hfailed ht =>
    obtain ⟨tale, htale, hr⟩ := h.exists_tale ht
    obtain ⟨hcount, hdone⟩ := h.ok hfailed
    refine ⟨_, _, _, h.leave htale (fun _ => ⟨by rw [hcount], ?_⟩) fun e he => Or.inl he⟩
    intro t ht
    rcases List.mem_append.1 ht with ht | ht
    · exact hdone t ht
    · rw [List.mem_singleton.1 ht, Tale.IsDone, hr]
  | @failed i r e hfailed ht =>
    obtain ⟨tale, htale, hr⟩ := h.exists_tale ht
    refine ⟨_, _, _, h.leave htale (fun hf => by cases hf) fun e' he' => Or.inr ?_⟩
    rw [hr, ← Option.some.inj he']
  | abandoned hfailed ht =>
    obtain ⟨tale, htale, -⟩ := h.exists_tale ht
    refine ⟨_, _, _, h.leave htale (fun hf => ?_) fun e he => Or.inl he⟩
    rw [hf] at hfailed
    cases hfailed

end Ledger

/-- Every reachable state of a crew has its books in order. -/
theorem exists_ledger (h : Reachable mode limit (start feed w) c) :
    ∃ left present j, Ledger mode limit feed w left present j c := by
  induction h with
  | start => exact ⟨_, _, _, ledger_start mode limit feed w⟩
  | step _ hstep ih =>
    obtain ⟨left, present, j, h⟩ := ih
    exact h.step hstep

/-! ## To the end -/

lemma reachable_follow {first : Crew ρ ι} (schedule : List Choice)
    (h : Reachable mode limit first c) :
    Reachable mode limit first (follow mode limit schedule c) := by
  induction schedule generalizing c with
  | nil => exact h
  | cons choice rest ih =>
    rw [follow]
    cases hstep : c.step mode limit choice with
    | none => exact ih h
    | some c' => exact ih (h.step hstep)

lemma reachable_settle {first : Crew ρ ι} (h : Reachable mode limit first c) :
    Reachable mode limit first (settle mode limit c) := by
  fun_induction settle mode limit c with
  | case1 c hnone => exact h
  | case2 c next hnext hlt ih => exact ih (h.step hnext)

/-! ### What can be chosen -/

lemma step_abandon_ne_none (hfailed : c.failed.isSome = true) (htasks : c.tasks ≠ []) :
    c.step mode limit (.abandon 0) ≠ none := by
  have hlength : 0 < c.tasks.length := List.length_pos_iff.2 htasks
  simp [step, hfailed, hlength]

/-- A crew that can take a record can: the feed always has something to say. -/
lemma step_pull_ne_none (hlimit : 0 < limit) (hfailed : c.failed = none)
    (hungry : c.hungry limit = true) : c.step mode limit (.pull 0) ≠ none := by
  intro h
  simp only [step, hfailed, hungry, Option.isNone_none, Bool.and_self, if_true] at h
  split at h
  · rename_i hpull
    exact Feed.pull_zero_ne_none hlimit hpull
  all_goals cases h

/-- A task that is not through can move on. -/
lemma work_ne_none {t : Task} (h : ∀ outcome, t.progress ≠ .finished outcome) (w : World ρ ι) :
    work mode w t ≠ none := by
  obtain ⟨r, p⟩ := t
  cases p with
  | waiting =>
    intro hwork
    simp only [work] at hwork
    split at hwork <;> cases hwork
  | resolved n =>
    intro hwork
    cases hwork
  | finished outcome => exact absurd rfl (h outcome)

lemma step_advance_ne_none {t : Task} {rest : List Task} (htasks : c.tasks = t :: rest)
    (h : ∀ outcome, t.progress ≠ .finished outcome) :
    c.step mode limit (.advance 0) ≠ none := by
  have moves : work mode c.world t ≠ none := work_ne_none h c.world
  obtain ⟨next, hnext⟩ := Option.ne_none_iff_exists'.1 moves
  simp [step, htasks, hnext]

lemma step_join_ne_none {r : Record} {outcome : Option Failure} {rest : List Task}
    (hfailed : c.failed = none) (hsated : c.hungry limit = false)
    (htasks : c.tasks = ⟨r, .finished outcome⟩ :: rest) :
    c.step mode limit (.join 0) ≠ none := by
  cases outcome <;> simp [step, hfailed, hsated, htasks]

/-- The oldest of some tasks either moves on or is waited for. -/
lemma step_preferred_ne_none_of_tasks {t : Task} {rest : List Task} (hfailed : c.failed = none)
    (hsated : c.hungry limit = false) (htasks : c.tasks = t :: rest) :
    c.step mode limit (c.preferred limit) ≠ none := by
  have hsome : ¬ c.failed.isSome = true := by simp [hfailed]
  rw [preferred, if_neg hsome, if_neg (Bool.eq_false_iff.1 hsated), htasks]
  obtain ⟨r, p⟩ := t
  cases p with
  | waiting => exact step_advance_ne_none htasks fun _ h => Progress.noConfusion h
  | resolved n => exact step_advance_ne_none htasks fun _ h => Progress.noConfusion h
  | finished outcome => exact step_join_ne_none hfailed hsated htasks

omit [Resolver ρ] [Index ι] in
/-- A crew is through if no task is left and none is to come. -/
lemma isOver_iff : c.isOver = true ↔
    (c.exhausted = true ∨ c.failed.isSome = true) ∧ c.tasks = [] := by
  rw [isOver, Bool.and_eq_true, Bool.or_eq_true, List.isEmpty_iff]

omit [Resolver ρ] [Index ι] in
/-- With no task in flight a crew with room for one is sated only at the end of its feed. -/
lemma exhausted_of_sated (hlimit : 0 < limit) (hsated : c.hungry limit = false)
    (htasks : c.tasks = []) : c.exhausted = true := by
  rwa [hungry, htasks, List.length_nil, decide_eq_true hlimit, Bool.and_true,
    Bool.not_eq_false'] at hsated

/-- A crew with room for a task that can make no preferred choice is through. -/
lemma isOver_of_step_preferred (hlimit : 0 < limit)
    (h : c.step mode limit (c.preferred limit) = none) : c.isOver = true := by
  rw [isOver_iff]
  by_cases hfailed : c.failed.isSome = true
  · rw [preferred, if_pos hfailed] at h
    exact ⟨Or.inr hfailed, by_contra fun htasks => step_abandon_ne_none hfailed htasks h⟩
  · have hnone : c.failed = none := Option.not_isSome_iff_eq_none.1 hfailed
    cases hungry : c.hungry limit with
    | true =>
      rw [preferred, if_neg hfailed, if_pos hungry] at h
      exact absurd h (step_pull_ne_none hlimit hnone hungry)
    | false =>
      cases htasks : c.tasks with
      | cons t rest => exact absurd h (step_preferred_ne_none_of_tasks hnone hungry htasks)
      | nil => exact ⟨Or.inl (exhausted_of_sated hlimit hungry htasks), rfl⟩

lemma isOver_settle (hlimit : 0 < limit) (c : Crew ρ ι) : (settle mode limit c).isOver = true := by
  fun_induction settle mode limit c with
  | case1 c hnone => exact isOver_of_step_preferred hlimit hnone
  | case2 c next hnext hlt ih => exact ih

/-- Whatever schedule a crew follows, in the end no task is left, and the feed is at its end
unless something has failed. -/
theorem isOver_finish (hlimit : 0 < limit) (schedule : List Choice) (feed : Feed)
    (w : World ρ ι) : (finish mode limit schedule feed w).isOver = true :=
  isOver_settle hlimit _

lemma tasks_finish (hlimit : 0 < limit) (schedule : List Choice) (feed : Feed) (w : World ρ ι) :
    (finish mode limit schedule feed w).tasks = [] :=
  (isOver_iff.1 (isOver_finish hlimit schedule feed w)).2

lemma reachable_finish (schedule : List Choice) (feed : Feed) (w : World ρ ι) :
    Reachable mode limit (start feed w) (finish mode limit schedule feed w) :=
  reachable_settle (reachable_follow schedule .start)

lemma follow_append (schedule schedule' : List Choice) (c : Crew ρ ι) :
    follow mode limit (schedule ++ schedule') c =
      follow mode limit schedule' (follow mode limit schedule c) := by
  induction schedule generalizing c with
  | nil => rfl
  | cons choice rest ih => exact ih _

/-- A crew that is through can make no choice. -/
lemma step_eq_none_of_isOver (h : c.isOver = true) (choice : Choice) :
    c.step mode limit choice = none := by
  obtain ⟨hend, htasks⟩ := isOver_iff.1 h
  cases choice with
  | pull n =>
    -- it has failed, or it is not hungry any more
    refine if_neg fun hopen => ?_
    rw [Bool.and_eq_true, Option.isNone_iff_eq_none, hungry, Bool.and_eq_true] at hopen
    obtain ⟨hfailed, hexhausted, -⟩ := hopen
    rcases hend with hend | hend
    · rw [hend] at hexhausted
      cases hexhausted
    · rw [hfailed] at hend
      cases hend
  | advance i => simp [step, htasks]
  | join i => simp [step, htasks]
  | abandon i => simp [step, htasks]

lemma settle_of_isOver (h : c.isOver = true) : settle mode limit c = c := by
  rw [settle]
  split
  · rfl
  · rename_i next hnext
    rw [step_eq_none_of_isOver h] at hnext
    cases hnext

/-- Every end that a crew can come to is the one it comes to under some schedule. -/
theorem exists_schedule (h : Reachable mode limit (start feed w) c) (hover : c.isOver = true) :
    ∃ schedule, finish mode limit schedule feed w = c := by
  have reached : ∃ schedule, follow mode limit schedule (start feed w) = c := by
    clear hover
    induction h with
    | start => exact ⟨[], rfl⟩
    | @step c c' choice _ hstep ih =>
      obtain ⟨schedule, rfl⟩ := ih
      refine ⟨schedule ++ [choice], ?_⟩
      rw [follow_append, follow, hstep]
      rfl
  obtain ⟨schedule, hschedule⟩ := reached
  refine ⟨schedule, ?_⟩
  rw [finish, hschedule, settle_of_isOver hover]

/-- What a crew makes of a feed under a schedule has an account. -/
theorem exists_account_writeAll (hlimit : 0 < limit) (mode : WriteMode) (schedule : List Choice)
    (feed : Feed) (w : World ρ ι) :
    ∃ j tales, w.Evolves j (writeAll mode limit schedule feed w).2 ∧
      Account mode feed.records feed.failures (writeAll mode limit schedule feed w).1 tales j := by
  have hreach : Reachable mode limit (start feed w) (finish mode limit schedule feed w) :=
    reachable_finish schedule feed w
  have hover : (finish mode limit schedule feed w).isOver = true :=
    isOver_finish hlimit schedule feed w
  obtain ⟨left, present, j, h⟩ := exists_ledger hreach
  obtain ⟨hend, htasks⟩ := isOver_iff.1 hover
  obtain rfl : present = [] := List.map_eq_nil_iff.1 (h.tasks.trans htasks)
  have hrecords := h.records
  rw [List.append_nil] at hrecords
  refine ⟨j, left, h.evolves, ?_, ?_, h.covered, ?_, fun n hn => ?_, fun e he => ?_⟩
  · exact fun t ht => h.isTrue t (List.mem_append_left _ ht)
  · exact h.perm.trans (List.Perm.of_eq (by rw [List.append_nil]))
  · exact (List.sublist_append_left _ _).subperm.trans hrecords.symm.subperm
  · -- nothing has failed, so the end of the feed was seen and all tasks have been waited for
    rw [writeAll] at hn
    simp only [result] at hn
    split at hn
    · cases hn
    · rename_i hfailed
      have hex := h.exhausted (hend.resolve_right (by rw [hfailed]; exact Bool.false_ne_true))
      obtain ⟨hcount, hdone⟩ := h.ok hfailed
      rw [hex.1, List.append_nil] at hrecords
      exact ⟨h.failures ▸ hex.2, hcount.trans (Except.ok.inj hn), hrecords.symm, hdone⟩
  · rw [writeAll] at he
    simp only [result] at he
    split at he
    · rename_i e' hfailed
      rw [← Except.error.inj he]
      exact h.error e' hfailed
    · cases he

end ShardIndex.Bootstrap.Crew
