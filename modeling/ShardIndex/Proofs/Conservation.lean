import ShardIndex.Index.Volatile
import ShardIndex.Proofs.Crew

/-!
# What becomes of the records that a crew takes

A run of a crew is told by what happens in it, choice by choice (`Run`), and every state that
choices lead to is that of a run (`exists_run_iff`).  Whatever the choices, a record that the loop
has taken is that of a task it has waited for or of one still in flight; tasks are given up only
after the loop has seen a failure.  What one choice changes is a `Change`, and the sum of the
changes is a `Tally` (`tally_of_run`).

The loop returns when it has seen a failure, or when it can start no task and has none to wait for
(`returned`).  Each choice leaves fewer of them to be made, and until the loop returns there is one,
so every run gets to an end; with room for a task that is the end of the feed or a failure
(`balance_of_run`).
-/

namespace ShardIndex.Bootstrap

open Identity RecordStream

/-- The number of records that are left is that of a list. -/
lemma Feed.size_eq (f : Feed) : f.size = f.records.length := by
  rw [size, records]
  induction f.streams with
  | nil => rfl
  | cons s l ih => rw [total, ih, recordsOf_cons, List.length_append]

/-- What a partial function makes of one element more. -/
lemma filterMap_concat {α β : Type} (f : α → Option β) (l : List α) (x : α) :
    (l ++ [x]).filterMap f = l.filterMap f ++ (f x).toList := by
  rw [List.filterMap_append]
  cases h : f x <;> simp [h]

namespace Crew

/-! ## What has happened -/

namespace Incident

/-- The record that was taken. -/
def taken? : Incident → Option Record
  | .took r => some r
  | _ => none

/-- The record of the task that was waited for, with the outcome. -/
def joined? : Incident → Option (Record × Option Failure)
  | .joined r outcome => some (r, outcome)
  | _ => none

/-- The record of the task that was given up. -/
def abandoned? : Incident → Option Record
  | .abandoned r => some r
  | _ => none

/-- The failure that the loop has seen: of the feed, or of a task. -/
def failure? : Incident → Option Failure
  | .broke e => some e
  | .joined _ outcome => outcome
  | _ => none

end Incident

/-- The records that were taken. -/
def taken (l : List Incident) : List Record := l.filterMap Incident.taken?

/-- The records of the tasks that were waited for, each with the outcome of the task. -/
def joined (l : List Incident) : List (Record × Option Failure) := l.filterMap Incident.joined?

/-- The records of the tasks that were given up. -/
def abandoned (l : List Incident) : List Record := l.filterMap Incident.abandoned?

/-- The failures that the loop has seen. -/
def failures (l : List Incident) : List Failure := l.filterMap Incident.failure?

section Views

variable {l : List Incident} {e : Failure}

lemma taken_concat (l : List Incident) (x : Incident) :
    taken (l ++ [x]) = taken l ++ x.taken?.toList :=
  filterMap_concat _ l x

lemma joined_concat (l : List Incident) (x : Incident) :
    joined (l ++ [x]) = joined l ++ x.joined?.toList :=
  filterMap_concat _ l x

lemma abandoned_concat (l : List Incident) (x : Incident) :
    abandoned (l ++ [x]) = abandoned l ++ x.abandoned?.toList :=
  filterMap_concat _ l x

lemma failures_concat (l : List Incident) (x : Incident) :
    failures (l ++ [x]) = failures l ++ x.failure?.toList :=
  filterMap_concat _ l x

lemma mem_failures_iff : e ∈ failures l ↔ .broke e ∈ l ∨ ∃ r, .joined r (some e) ∈ l := by
  rw [failures, List.mem_filterMap]
  constructor
  · rintro ⟨x, hx, he⟩
    cases x with
    | broke e' =>
      obtain rfl : e' = e := Option.some.inj he
      exact Or.inl hx
    | joined r outcome =>
      obtain rfl : outcome = some e := he
      exact Or.inr ⟨r, hx⟩
    | _ => cases he
  · rintro (hx | ⟨r, hx⟩)
    · exact ⟨_, hx, rfl⟩
    · exact ⟨_, hx, rfl⟩

/-- If no failure was seen, all tasks that were waited for have ended well. -/
lemma eq_none_of_mem_joined (h : failures l = []) {x : Record × Option Failure}
    (hx : x ∈ joined l) : x.2 = none := by
  obtain ⟨y, hy, hxy⟩ := List.mem_filterMap.1 hx
  have unseen : y.failure? = none := List.filterMap_eq_nil_iff.1 h y hy
  cases y with
  | joined r outcome =>
    obtain rfl : (r, outcome) = x := Option.some.inj hxy
    exact unseen
  | _ => cases hxy

end Views

variable {ρ ι : Type} [Resolver ρ] [Index ι]
variable {mode : WriteMode} {limit : Nat} {first c c' : Crew ρ ι} {feed : Feed} {w : World ρ ι}
  {l : List Incident} {x : Incident}

/-- The states that choices lead to, with what has happened on the way. -/
inductive Run (mode : WriteMode) (limit : Nat) (first : Crew ρ ι) :
    List Incident → Crew ρ ι → Prop
  | start : Run mode limit first [] first
  | step {l : List Incident} {c c' : Crew ρ ι} {x : Incident} (choice : Choice) :
      Run mode limit first l c → c.step mode limit choice = some c' →
      c.incident limit choice = some x → Run mode limit first (l ++ [x]) c'

/-- Every state that choices lead to is that of a run. -/
lemma exists_run_iff : (∃ l, Run mode limit first l c) ↔ Reachable mode limit first c := by
  constructor
  · rintro ⟨l, h⟩
    induction h with
    | start => exact .start
    | step choice _ hstep _ ih => exact ih.step hstep
  · intro h
    induction h with
    | start => exact ⟨[], .start⟩
    | @step c c' choice _ hstep ih =>
      obtain ⟨l, run⟩ := ih
      obtain ⟨x, hx, -⟩ := move_of_step hstep
      exact ⟨l ++ [x], run.step choice hstep hx⟩

/-- A run uses up the choices that there are. -/
lemma Run.length_add_remaining_le (h : Run mode limit first l c) :
    l.length + c.remaining ≤ first.remaining := by
  induction h with
  | start => exact Nat.le_of_eq (Nat.zero_add _)
  | step choice _ hstep _ ih =>
    have fewer := remaining_lt_of_step hstep
    rw [List.length_append, List.length_singleton]
    omega

/-! ## What one choice changes -/

/-- A task keeps its record. -/
lemma record_of_work {w w' : World ρ ι} {t t' : Task} (h : work mode w t = some (t', w')) :
    t'.record = t.record := by
  obtain ⟨r, p⟩ := t
  cases p with
  | waiting =>
    simp only [work] at h
    split at h <;> (obtain ⟨rfl, -⟩ := Prod.mk.inj (Option.some.inj h); rfl)
  | resolved n =>
    obtain ⟨rfl, -⟩ := Prod.mk.inj (Option.some.inj h)
    rfl
  | finished outcome => cases h

/-- A record that is taken, or waited for, or given up, changes places and nothing else. -/
structure Change (c : Crew ρ ι) (x : Incident) (c' : Crew ρ ι) : Prop where
  feed : c.feed.records.Perm (x.taken?.toList ++ c'.feed.records)
  tasks : (x.taken?.toList ++ c.tasks.map Task.record).Perm
    ((x.joined?.map Prod.fst).toList ++ (x.abandoned?.toList ++ c'.tasks.map Task.record))
  count : c'.count = c.count + x.joined?.toList.countP fun y => y.2.isNone
  failed : c'.failed.toList = c.failed.toList ++ x.failure?.toList
  patient : c'.failed = none → x.abandoned? = none
  exhausted : c'.exhausted = true ↔ c.exhausted = true ∨ x = .ended

/-- A task that leaves takes its record along. -/
lemma map_record_eraseIdx_perm {tasks : List Task} {i : Nat} {t : Task} (h : tasks[i]? = some t) :
    (tasks.map Task.record).Perm (t.record :: (tasks.eraseIdx i).map Task.record) := by
  obtain ⟨before, after, htasks, -, herase⟩ := exists_split h
  rw [herase, htasks, List.map_append, List.map_append, List.map_cons]
  exact List.perm_middle

lemma change_of_move (h : Move mode limit c x c') : Change c x c' := by
  cases h with
  | pulled hfailed hungry hpull =>
    refine ⟨Feed.records_of_pull_eq_record hpull, ?_, rfl, (List.append_nil _).symm, fun _ => rfl,
      by simp⟩
    rw [List.map_append]
    exact List.perm_append_comm
  | ended hfailed hungry hpull =>
    exact ⟨.refl _, .refl _, rfl, (List.append_nil _).symm, fun _ => rfl, by simp⟩
  | broke hfailed hungry hpull =>
    refine ⟨.refl _, .refl _, rfl, ?_, fun _ => rfl, by simp⟩
    rw [hfailed]
    rfl
  | @advanced i t t' w' ht hwork =>
    refine ⟨.refl _, ?_, rfl, (List.append_nil _).symm, fun _ => rfl, by simp⟩
    obtain ⟨before, after, htasks, hset, -⟩ := exists_split ht
    rw [hset, htasks, List.map_append, List.map_append, List.map_cons, List.map_cons,
      record_of_work hwork]
    exact .refl _
  | joined hfailed ht =>
    exact ⟨.refl _, map_record_eraseIdx_perm ht, rfl, (List.append_nil _).symm, fun _ => rfl,
      by simp⟩
  | failed hfailed ht =>
    refine ⟨.refl _, map_record_eraseIdx_perm ht, rfl, ?_, fun _ => rfl, by simp⟩
    rw [hfailed]
    rfl
  | abandoned hfailed ht =>
    refine ⟨.refl _, map_record_eraseIdx_perm ht, rfl, (List.append_nil _).symm, fun hnone => ?_,
      by simp⟩
    rw [hnone] at hfailed
    cases hfailed

/-! ## The books -/

/-- What has become of the records of a feed, by what has happened. -/
structure Tally (feed : Feed) (l : List Incident) (c : Crew ρ ι) : Prop where
  /-- Every record of the feed was taken or is still to come. -/
  delivered : feed.records.Perm (taken l ++ c.feed.records)
  /-- The task of a record that was taken was waited for, or given up, or it is in flight. -/
  conserved : (taken l).Perm
    ((joined l).map Prod.fst ++ (abandoned l ++ c.tasks.map Task.record))
  /-- The tasks that have ended well are counted when they are waited for. -/
  count : c.count = (joined l).countP fun y => y.2.isNone
  /-- The first failure that the loop sees is the last. -/
  failed : c.failed.toList = failures l
  /-- No task is given up before a failure was seen. -/
  patient : c.failed = none → abandoned l = []
  /-- The loop knows the end of the feed from having seen it. -/
  exhausted : c.exhausted = true ↔ .ended ∈ l

omit [Resolver ρ] [Index ι] in
lemma tally_start (feed : Feed) (w : World ρ ι) : Tally feed [] (start feed w) where
  delivered := .refl _
  conserved := .refl _
  count := rfl
  failed := rfl
  patient _ := rfl
  exhausted := by simp [start]

omit [Resolver ρ] [Index ι] in
/-- What changes is entered. -/
lemma Tally.concat (h : Tally feed l c) (change : Change c x c') : Tally feed (l ++ [x]) c' where
  delivered := by
    rw [taken_concat, List.append_assoc]
    exact h.delivered.trans (change.feed.append_left _)
  conserved := by
    refine List.perm_iff_count.2 fun r => ?_
    have before := List.perm_iff_count.1 h.conserved r
    have moved := List.perm_iff_count.1 change.tasks r
    have outcomes : x.joined?.toList.map Prod.fst = (x.joined?.map Prod.fst).toList := by
      cases x.joined? <;> rfl
    rw [taken_concat, joined_concat, abandoned_concat, List.map_append, outcomes]
    simp only [List.count_append] at before moved ⊢
    omega
  count := by rw [joined_concat, List.countP_append, change.count, h.count]
  failed := by rw [failures_concat, change.failed, h.failed]
  patient hnone := by
    have earlier : c.failed = none := by
      have none_left := change.failed
      rw [hnone] at none_left
      exact Option.toList_eq_nil_iff.1 (List.append_eq_nil_iff.1 none_left.symm).1
    rw [abandoned_concat, h.patient earlier, change.patient hnone]
    rfl
  exhausted := by
    rw [change.exhausted, h.exhausted, List.mem_append, List.mem_singleton]
    exact or_congr Iff.rfl eq_comm

/-- Every run has its books in order. -/
theorem tally_of_run (h : Run mode limit (start feed w) l c) : Tally feed l c := by
  induction h with
  | start => exact tally_start feed w
  | step choice _ hstep hx ih =>
    obtain ⟨y, hy, move⟩ := move_of_step hstep
    obtain rfl := Option.some.inj (hx.symm.trans hy)
    exact ih.concat (change_of_move move)

/-! ## Where the loop returns -/

/-- What the loop returns in a state, if it does: the failure that it has seen, or its count once
it can start no task and has none to wait for. -/
def returned (limit : Nat) (c : Crew ρ ι) : Option (Except Failure Nat) :=
  match c.failed with
  | some e => some (.error e)
  | none => if c.hungry limit = false ∧ c.tasks = [] then some (.ok c.count) else none

omit [Resolver ρ] [Index ι] in
lemma returned_eq_error_iff {e : Failure} :
    c.returned limit = some (.error e) ↔ c.failed = some e := by
  unfold returned
  cases c.failed with
  | none => simp
  | some e' => simp

omit [Resolver ρ] [Index ι] in
lemma returned_eq_ok_iff {n : Nat} : c.returned limit = some (.ok n) ↔
    c.failed = none ∧ c.hungry limit = false ∧ c.tasks = [] ∧ c.count = n := by
  unfold returned
  cases c.failed with
  | none => simp [and_assoc]
  | some e => simp

omit [Resolver ρ] [Index ι] in
/-- When a crew is through its loop has returned. -/
lemma returned_of_isOver (h : c.isOver = true) : c.returned limit = some c.result := by
  obtain ⟨hend, htasks⟩ := isOver_iff.1 h
  rw [returned, result]
  cases hfailed : c.failed with
  | some e => rfl
  | none =>
    have hexhausted := hend.resolve_right (by simp [hfailed])
    have hsated : c.hungry limit = false := by simp [hungry, hexhausted]
    exact if_pos ⟨hsated, htasks⟩

/-- Until the loop returns there is a choice to be made. -/
lemma exists_step_of_returned_eq_none (hlimit : 0 < limit) (h : c.returned limit = none) :
    ∃ choice, (c.step mode limit choice).isSome := by
  refine ⟨c.preferred limit, Option.isSome_iff_ne_none.2 fun hnone => ?_⟩
  have ended : c.returned limit = some c.result :=
    returned_of_isOver (isOver_of_step_preferred hlimit hnone)
  rw [h] at ended
  cases ended

/-- A call under a schedule returns what the loop returns at the end of a run. -/
theorem exists_run_writeAll (hlimit : 0 < limit) (mode : WriteMode) (schedule : List Choice)
    (feed : Feed) (w : World ρ ι) :
    ∃ l c, Run mode limit (start feed w) l c ∧
      c.returned limit = some (writeAll mode limit schedule feed w).1 := by
  have reached : Reachable mode limit (start feed w) (finish mode limit schedule feed w) :=
    reachable_finish schedule feed w
  obtain ⟨l, run⟩ := exists_run_iff.2 reached
  exact ⟨l, _, run, returned_of_isOver (isOver_finish hlimit schedule feed w)⟩

/-- **Where the records are, and how it ends.**  A crew with room for at least one task is followed
through any choices.  At every moment there are at most as many tasks in flight as there is room
for; no record of the feed is lost, and none is there twice; the records that were taken are those
of the tasks that were waited for and of those in flight, and of tasks that were given up, which
happens only once a failure was returned; and the tasks that were waited for and had ended well are
counted.  At most four choices are made for a record and two more, and until the loop returns one
can be made.  It returns a count only when it has seen the end of the feed, nothing has failed and
no task is left, so the count is the number of all records; and it returns a failure exactly if the
feed has delivered it, or a task that was waited for has ended with it. -/
theorem balance_of_run (hlimit : 0 < limit) (h : Run mode limit (start feed w) l c) :
    (c.tasks.length ≤ limit ∧
      feed.records.Perm (taken l ++ c.feed.records) ∧
      (taken l).Perm ((joined l).map Prod.fst ++ (abandoned l ++ c.tasks.map Task.record)) ∧
      (abandoned l ≠ [] → ∃ e, c.returned limit = some (.error e)) ∧
      c.count = (joined l).countP fun y => y.2.isNone) ∧
    (l.length ≤ 4 * feed.records.length + 2 ∧
      (c.returned limit = none → ∃ choice, (c.step mode limit choice).isSome)) ∧
    (∀ n, c.returned limit = some (.ok n) →
      .ended ∈ l ∧ feed.failures = [] ∧ failures l = [] ∧ c.feed.records = [] ∧ c.tasks = [] ∧
      n = feed.records.length) ∧
    ∀ e, c.returned limit = some (.error e) ↔ .broke e ∈ l ∨ ∃ r, .joined r (some e) ∈ l := by
  obtain ⟨left, present, j, ledger⟩ := exists_ledger (exists_run_iff.1 ⟨l, h⟩)
  have tally := tally_of_run h
  refine ⟨⟨ledger.bounded, tally.delivered, tally.conserved, fun hne => ?_, tally.count⟩,
    ⟨?_, exists_step_of_returned_eq_none hlimit⟩, fun n hn => ?_, fun e => ?_⟩
  · obtain ⟨e, he⟩ := Option.ne_none_iff_exists'.1 (mt tally.patient hne)
    exact ⟨e, returned_eq_error_iff.2 he⟩
  · have bound := h.length_add_remaining_le
    have first : (start feed w).remaining = 4 * feed.records.length + 2 := by
      rw [← feed.size_eq]
      rfl
    omega
  · obtain ⟨hfailed, hsated, htasks, hcount⟩ := returned_eq_ok_iff.1 hn
    have hexhausted := exhausted_of_sated hlimit hsated htasks
    obtain ⟨hrecords, hfailures⟩ := ledger.exhausted hexhausted
    have unfailed : failures l = [] := by rw [← tally.failed, hfailed, Option.toList_none]
    refine ⟨tally.exhausted.1 hexhausted, ledger.failures ▸ hfailures, unfailed, hrecords, htasks,
      ?_⟩
    -- all records were taken, all tasks were waited for, and all of them ended well
    have whole := (tally.delivered.trans (tally.conserved.append_right _)).length_eq
    rw [tally.patient hfailed, htasks, hrecords] at whole
    have well : (joined l).countP (fun y => y.2.isNone) = (joined l).length :=
      List.countP_eq_length.2 fun y hy => by rw [eq_none_of_mem_joined unfailed hy]; rfl
    rw [← hcount, tally.count, well, whole]
    simp
  · rw [returned_eq_error_iff, ← Option.mem_toList, tally.failed, mem_failures_iff]

/-- With no room at all the loop would return before it has taken a record. -/
example : (start feed w).returned 0 = some (.ok 0) := rfl

/-- A crew that is to write three records, with one id for them. -/
def threeForOne : Crew Counter VolatileIndex :=
  start (.ofStream ⟨[⟨[170], 0, 5⟩, ⟨[171], 0, 6⟩, ⟨[172], 0, 7⟩], none⟩)
    ⟨Counter.withLimit 0 0, VolatileIndex.empty, []⟩

/-- With two tasks in flight the second overtakes the first and gets the id.  A third is in flight
when the loop waits for the first, which was refused. -/
def overtaken : List Incident :=
  [.took ⟨[170], 0, 5⟩, .took ⟨[171], 0, 6⟩, .advanced ⟨[171], 0, 6⟩, .advanced ⟨[170], 0, 5⟩,
    .advanced ⟨[171], 0, 6⟩, .joined ⟨[171], 0, 6⟩ none, .took ⟨[172], 0, 7⟩,
    .joined ⟨[170], 0, 5⟩ (some (.idsExhausted 1))]

/-- Of the three records that were taken two were waited for, and the third is in flight when the
loop returns the failure. -/
theorem balance_of_run_overtaken : 0 < 2 ∧ ∃ c, Run .add 2 threeForOne overtaken c ∧
    c.count = 1 ∧ c.returned 2 = some (.error (.idsExhausted 1)) ∧
    [(⟨[170], 0, 5⟩ : Record), ⟨[171], 0, 6⟩, ⟨[172], 0, 7⟩].Perm
      (⟨[171], 0, 6⟩ :: ⟨[170], 0, 5⟩ :: c.tasks.map Task.record) ∧
    overtaken.length ≤ 4 * 3 + 2 := by
  have started : Run .add 2 threeForOne _ _ :=
    (Run.start.step (.pull 0) rfl rfl).step (.pull 0) rfl rfl
  have resolved := (started.step (.advance 1) rfl rfl).step (.advance 0) rfl rfl
  have written := (resolved.step (.advance 1) rfl rfl).step (.join 1) rfl rfl
  have run := (written.step (.pull 0) rfl rfl).step (.join 0) rfl rfl
  obtain ⟨⟨-, -, conserved, -, count⟩, ⟨bound, -⟩, -, failed⟩ := balance_of_run Nat.two_pos run
  refine ⟨Nat.two_pos, _, run, count, (failed _).2 (Or.inr ⟨⟨[170], 0, 5⟩, ?_⟩), conserved, bound⟩
  decide

end Crew

end ShardIndex.Bootstrap
